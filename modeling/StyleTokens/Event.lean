/-!
What a run reports on its way.

* `Level`: how important a record is;
* `Event`: a record of a channel, or a trace of a topic.
-/

namespace StyleTokens

/-- How important a record is. -/
inductive Level where
  | debug
  | info
  | warning
  deriving DecidableEq, Repr

/-- The rank of a level. -/
def Level.rank : Level → Nat
  | .debug => 10
  | .info => 20
  | .warning => 30

/-- The name of a level. -/
def Level.name : Level → String
  | .debug => "DEBUG"
  | .info => "INFO"
  | .warning => "WARNING"

/-- Something that is reported on the way. -/
inductive Event where
  | record (level : Level) (channel : String) (text : String)
  | trace (topic : String) (text : String)
  deriving DecidableEq, Repr

end StyleTokens
