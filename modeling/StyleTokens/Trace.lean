import StyleTokens.Event
import StyleTokens.Moment
import StyleTokens.Text.Blank
import StyleTokens.Text.Case
import StyleTokens.Text.Segment

/-!
Traces of topics and the text of what is reported.

* `Topics`, `Topics.read`: the topics that are traced, from a list with commas;
* `Topics.isTraced`: is a topic traced? The topic `all` stands for every one;
* `traceLine`: a trace with its moment, its topic and its level;
* `plainReport`, `labelledReport`: the text of events, with records as bare messages or with their
  level and channel.
-/

namespace StyleTokens

/-- The topics that are traced. -/
abbrev Topics := List String

/-- A topic in the form in which topics are compared. -/
def topicForm (topic : String) : String :=
  String.ofList (Text.strip (Text.lower topic.toList))

namespace Topics

/-- The topics of a list with commas; blank entries do not count. -/
def read (s : String) : Topics :=
  (Text.segments ',' s.toList).filterMap fun part =>
    let topic := Text.strip part
    if topic = [] then none else some (String.ofList (Text.lower topic))

/-- Is the topic traced? -/
def isTraced (topics : Topics) (topic : String) : Bool :=
  topics.contains "all" || topics.contains (topicForm topic)

end Topics

/-- The line of a trace. -/
def traceLine (now : Moment) (topic level text : String) : String :=
  "[" ++ now.plain ++ "] [" ++ topicForm topic ++ "][" ++
    String.ofList (Text.upper level.toList) ++ "] " ++ text ++ "\n"

/-- The text that a trace prints: its line if the topic is traced. -/
def traceText (topics : Topics) (now : Moment) (topic level text : String) : String :=
  if topics.isTraced topic then traceLine now topic level text else ""

/-- The text of an event, given the text of records. -/
def Event.text (topics : Topics) (now : Moment) (record : Level → String → String → String) :
    Event → String
  | .record level channel text => record level channel text
  | .trace topic text => traceText topics now topic Level.debug.name text

/-- A record as its bare message, if it is a warning. -/
def bareRecord (level : Level) (_channel text : String) : String :=
  if Level.warning.rank ≤ level.rank then text ++ "\n" else ""

/-- A record with its level and its channel, if it is important enough. -/
def labelledRecord (least : Level) (level : Level) (channel text : String) : String :=
  if least.rank ≤ level.rank then level.name ++ " " ++ channel ++ ": " ++ text ++ "\n" else ""

/-- The text of events with records as bare messages. -/
def plainReport (topics : Topics) (now : Moment) (events : List Event) : String :=
  String.join (events.map (Event.text topics now bareRecord))

/-- The text of events with records labelled. -/
def labelledReport (topics : Topics) (now : Moment) (least : Level) (events : List Event) :
    String :=
  String.join (events.map (Event.text topics now (labelledRecord least)))

end StyleTokens
