import StyleTokens.Build.Loader
import StyleTokens.Proofs.Confinement

/-!
What was loaded before makes no difference.

* `LoaderEvent`, `LoaderState.after`, `LoaderState.result?`: loads of configuration files among changes
  of files and variables, the state after each of them and what loads give;
* `StampsTell`: in a list of trees, a file that has the same time twice has the same content;
* `ConfigKey.valueOf`: what a content gives for a key, and `exists_content_of_keyOf`, `loadKey_eq`: a key
  names a content of the tree, and what is loaded for it depends on that content alone;
* `ConfigCache.Sound`, `ConfigCache.Sound.loadConfig`: what is kept comes from one of the trees, and
  a load keeps it so;
* `LoaderState.results_eq_uncached`: every load of a history gives what it would without a cache.
-/

namespace StyleTokens

variable {ν ε α : Type}

/-! ### Histories -/

/-- A load of a configuration file, or a change between loads. -/
inductive LoaderEvent (ν : Type) where
  | write (path : Pathname) (content : List UInt8) (stamp : Option Stamp)
  | makeDirectories (path : Pathname)
  | delete (path : Pathname)
  | setVariable (name text : String)
  | unsetVariable (name : String)
  | clearCache
  | load (place : Pathname) (request : ConfigRequest ν)

namespace LoaderEvent

/-- The files after an event. A change that fails leaves what it has done. -/
def workspaceAfter (w : Workspace) : LoaderEvent ν → Workspace
  | .write path content stamp => { w with tree := (w.tree.install w.cwd path content stamp).1 }
  | .makeDirectories path =>
    { w with tree := (FileTree.makeDirectories w.cwd path path.parts.length w.tree).1 }
  | .delete path => { w with tree := (w.tree.delete w.cwd path).1 }
  | _ => w

/-- The variables after an event. A change that fails changes none. -/
def environmentAfter (env : Environment) : LoaderEvent ν → Environment
  | .setVariable name text =>
    match env.set name text with
    | .ok after => after
    | .error _ => env
  | .unsetVariable name => env.unset name
  | _ => env

/-- The trees of files during a history, the first and the last one with them. -/
def trees (w : Workspace) : List (LoaderEvent ν) → List FileTree
  | [] => [w.tree]
  | e :: history => w.tree :: trees (e.workspaceAfter w) history

end LoaderEvent

/-- The files, the variables, and what was loaded before. -/
structure LoaderState (ν α : Type) where
  workspace : Workspace
  environment : Environment
  cache : ConfigCache ν α := []

namespace LoaderState

variable [DecidableEq ν] (validations : Validations ν ε α)

/-- What an event gives if it is a load. -/
def result? (s : LoaderState ν α) :
    LoaderEvent ν → Option (Except (ConfigError ε) (ConfigValue α))
  | .load place r =>
    some (s.workspace.loadConfig validations s.environment place r s.cache).2.outcome
  | _ => none

/-- The cache after an event. -/
def cacheAfter (s : LoaderState ν α) : LoaderEvent ν → ConfigCache ν α
  | .clearCache => []
  | .load place r => (s.workspace.loadConfig validations s.environment place r s.cache).1
  | _ => s.cache

/-- The state after an event. -/
def after (s : LoaderState ν α) (e : LoaderEvent ν) : LoaderState ν α where
  workspace := e.workspaceAfter s.workspace
  environment := e.environmentAfter s.environment
  cache := s.cacheAfter validations e

/-- What the loads of a history give. -/
def results (s : LoaderState ν α) :
    List (LoaderEvent ν) → List (Except (ConfigError ε) (ConfigValue α))
  | [] => []
  | e :: history => (s.result? validations e).toList ++ (s.after validations e).results history

/-- What the loads of a history give if the cache is empty before each of them. -/
def uncachedResults (w : Workspace) (env : Environment) :
    List (LoaderEvent ν) → List (Except (ConfigError ε) (ConfigValue α))
  | [] => []
  | e :: history =>
    (result? validations ⟨w, env, []⟩ e).toList
      ++ uncachedResults (e.workspaceAfter w) (e.environmentAfter env) history

end LoaderState

/-- A file that has the same time in two of the trees has the same content. -/
def StampsTell (trees : List FileTree) : Prop :=
  ∀ t ∈ trees, ∀ t' ∈ trees, ∀ l content content' stamp,
    t.file? l = some (content, stamp) → t'.file? l = some (content', stamp) → content = content'

/-- If the location has a file of the same time in both trees, is the content the same? -/
def FileTree.tellsAt (t t' : FileTree) (l : Location) : Bool :=
  match t.file? l, t'.file? l with
  | some (content, stamp), some (content', stamp') => stamp != stamp' || content == content'
  | _, _ => true

/-- Only locations with an entry in the first of two trees matter. -/
lemma stampsTell_iff {trees : List FileTree} :
    (∀ t ∈ trees, ∀ t' ∈ trees, ∀ e ∈ t.entries, t.tellsAt t' e.1) ↔ StampsTell trees := by
  constructor
  · intro h t ht t' ht' l content content' stamp hfile hfile'
    have hget := FileTree.file?_eq_some_iff.mp hfile
    rw [FileTree.get?] at hget
    split at hget
    · cases hget
    · obtain ⟨before, after, hentries, -⟩ := List.lookup_eq_some_iff.mp hget
      have htells := h t ht t' ht' (l, .file content stamp) (by rw [hentries]; simp)
      simpa [FileTree.tellsAt, hfile, hfile'] using htells
  · intro h t ht t' ht' e _
    rw [FileTree.tellsAt]
    split
    · next content stamp content' stamp' hfile hfile' =>
        by_cases hstamp : stamp = stamp'
        · subst hstamp
          simp [h t ht t' ht' e.1 content content' stamp hfile hfile']
        · simp [hstamp]
    · rfl

instance (trees : List FileTree) : Decidable (StampsTell trees) := decidable_of_iff _ stampsTell_iff

/-! ### Keys and contents -/

/-- What a content gives for a key, in whichever tree it is found. -/
def ConfigKey.valueOf (key : ConfigKey ν) (validations : Validations ν ε α) (content : List UInt8) :
    Except (ConfigError ε) (ConfigValue α) := do
  let cs ← (Utf8.decode content).mapError fun e => .unreadable key.location (.encoding e)
  let v ← (Json.readChars (Utf8.unifyNewlines cs)).mapError fun
    | .malformed e => .malformed key.location e
    | .longNumber digits => .longNumber digits
  Workspace.interpret key.location key.mode (validations key.validate) v

/-- The location at which the file of a key is read: the one in the key, unless that has double dots. -/
def ConfigKey.place (key : ConfigKey ν) : Location := key.location.pathname.resolve []

section Content

variable {validations : Validations ν ε α} {w : Workspace} {env : Environment} {place : Pathname}
  {r : ConfigRequest ν} {key : ConfigKey ν}

/-- A key that is found names a file of the tree by its time. -/
lemma exists_content_of_keyOf (h : w.keyOf validations env place r = .ok key) :
    ∃ content, w.tree.file? key.place = some (content, key.stamp) ∧
      w.tree.readBytes w.cwd key.location.pathname = .ok content := by
  rw [Workspace.keyOf] at h
  obtain ⟨mode, -, h⟩ := exists_of_bind_eq_ok h
  obtain ⟨⟨location, stamp⟩, hpath, h⟩ := exists_of_bind_eq_ok h
  obtain rfl : (⟨location, stamp, mode, r.validate⟩ : ConfigKey ν) = key := Except.ok.inj h
  rw [Workspace.configPath] at hpath
  obtain ⟨dir, -, hlocation⟩ := exists_of_bind_eq_ok hpath
  obtain ⟨-, -, content, hentry⟩ := Workspace.exists_entry_of_configLocation hlocation
  obtain ⟨l, hfollow, hget⟩ := FileTree.exists_follow_of_entryAt? hentry
  obtain rfl := FileTree.resolve_eq_of_follow hfollow
  refine ⟨content, FileTree.file?_eq_some_iff.mpr hget, ?_⟩
  have hsame : w.tree.follow w.cwd location.pathname
      = .ok (location.pathname.resolve []) := hfollow
  rw [FileTree.readBytes, hsame]
  dsimp only
  rw [hget]

/-- What is loaded for a key depends on the content of its file alone. -/
lemma loadKey_eq {content : List UInt8}
    (h : w.tree.readBytes w.cwd key.location.pathname = .ok content) :
    w.loadKey validations key = key.valueOf validations content := by
  have htext : w.tree.readText w.cwd key.location.pathname
      = ((Utf8.decode content).mapError ReadError.encoding).map Utf8.unifyNewlines := by
    rw [FileTree.readText, h]
    change ((Utf8.decode content).mapError ReadError.encoding >>= fun cs =>
      .ok (Utf8.unifyNewlines cs)) = _
    cases Utf8.decode content <;> rfl
  rw [Workspace.loadKey, Workspace.readConfig, Workspace.readDocument, htext, ConfigKey.valueOf]
  cases Utf8.decode content with
  | error e => rfl
  | ok cs =>
      change (((Json.readChars (Utf8.unifyNewlines cs)).mapError DocumentError.text).mapError
        _ >>= _) = ((Json.readChars (Utf8.unifyNewlines cs)).mapError _ >>= _)
      cases Json.readChars (Utf8.unifyNewlines cs) with
      | error e => cases e <;> rfl
      | ok v => rfl

end Content

/-! ### What is kept -/

/-- Every result in the cache is what the file of its key, as it is in one of the trees, gives. -/
def ConfigCache.Sound [DecidableEq ν] (validations : Validations ν ε α) (trees : List FileTree)
    (cache : ConfigCache ν α) : Prop :=
  ∀ key result, cache.lookup key = some result →
    ∃ t ∈ trees, ∃ content, t.file? key.place = some (content, key.stamp) ∧
      key.valueOf validations content = .ok result

section Sound

variable [DecidableEq ν] {validations : Validations ν ε α} {trees : List FileTree}
  {cache : ConfigCache ν α} {w : Workspace}

/-- Nothing is kept at first. -/
lemma ConfigCache.sound_nil : ConfigCache.Sound validations trees [] :=
  fun _ _ h => nomatch h

/-- A load gives what it would without a cache, and what it keeps comes from one of the trees. -/
lemma ConfigCache.Sound.loadConfig (hcache : ConfigCache.Sound validations trees cache)
    (htrees : StampsTell trees) (hw : w.tree ∈ trees) (env : Environment) (place : Pathname)
    (r : ConfigRequest ν) :
    (w.loadConfig validations env place r cache).2.outcome
        = (w.loadConfig validations env place r []).2.outcome ∧
      ConfigCache.Sound validations trees (w.loadConfig validations env place r cache).1 := by
  rw [Workspace.loadConfig, Workspace.loadConfig]
  cases hkey : w.keyOf validations env place r with
  | error e => exact ⟨rfl, hcache⟩
  | ok key =>
      obtain ⟨content, hfile, hread⟩ := exists_content_of_keyOf hkey
      have hvalue : w.loadKey validations key = key.valueOf validations content :=
        loadKey_eq hread
      dsimp only [List.lookup_nil]
      cases hkept : cache.lookup key with
      | some result =>
          -- the kept result comes from a content under the time that the file has now
          obtain ⟨t, ht, content', hfile', hresult⟩ := hcache key result hkept
          obtain rfl : content' = content :=
            htrees t ht w.tree hw key.place content' content key.stamp hfile' hfile
          refine ⟨?_, hcache⟩
          dsimp only
          rw [hvalue, hresult]
      | none =>
          dsimp only
          rw [hvalue]
          cases hresult : key.valueOf validations content with
          | error e => exact ⟨rfl, hcache⟩
          | ok result =>
              refine ⟨rfl, fun k result' h => ?_⟩
              rw [List.lookup_cons] at h
              split at h
              · next heq =>
                  obtain rfl : k = key := by simpa using heq
                  obtain rfl := Option.some.inj h
                  exact ⟨w.tree, hw, content, hfile, hresult⟩
              · exact hcache k result' h

end Sound

/-! ### Whole histories -/

namespace LoaderState

variable [DecidableEq ν] {validations : Validations ν ε α} {trees : List FileTree}

/-- An event gives what it would without a cache, and what is kept comes from one of the trees. -/
lemma result?_eq_uncached {s : LoaderState ν α}
    (hcache : ConfigCache.Sound validations trees s.cache) (htrees : StampsTell trees)
    (hw : s.workspace.tree ∈ trees) (e : LoaderEvent ν) :
    s.result? validations e = result? validations ⟨s.workspace, s.environment, []⟩ e ∧
      ConfigCache.Sound validations trees (s.after validations e).cache := by
  cases e with
  | load place r =>
      obtain ⟨hresult, hkept⟩ := hcache.loadConfig htrees hw s.environment place r
      exact ⟨congrArg some hresult, hkept⟩
  | clearCache => exact ⟨rfl, ConfigCache.sound_nil⟩
  | write path content stamp => exact ⟨rfl, hcache⟩
  | makeDirectories path => exact ⟨rfl, hcache⟩
  | delete path => exact ⟨rfl, hcache⟩
  | setVariable name text => exact ⟨rfl, hcache⟩
  | unsetVariable name => exact ⟨rfl, hcache⟩

/-- The loads of a history that starts with a sound cache give what they would without one. -/
lemma results_eq_of_sound {history : List (LoaderEvent ν)} {s : LoaderState ν α}
    (hcache : ConfigCache.Sound validations trees s.cache) (htrees : StampsTell trees)
    (hhistory : LoaderEvent.trees s.workspace history ⊆ trees) :
    s.results validations history = uncachedResults validations s.workspace s.environment history := by
  induction history generalizing s with
  | nil => rfl
  | cons e history ih =>
      rw [LoaderEvent.trees, List.cons_subset] at hhistory
      obtain ⟨hresult, hkept⟩ := result?_eq_uncached hcache htrees hhistory.1 e
      rw [results, uncachedResults, hresult, ih hkept hhistory.2]
      rfl

/-- **What was loaded before makes no difference.** In every history of changes and loads in which a
file never has two contents under one time, each load gives what it would with an empty cache. -/
theorem results_eq_uncached (validations : Validations ν ε α) (w : Workspace) (env : Environment)
    (history : List (LoaderEvent ν)) (h : StampsTell (LoaderEvent.trees w history)) :
    results validations ⟨w, env, []⟩ history = uncachedResults validations w env history :=
  results_eq_of_sound ConfigCache.sound_nil h (List.Subset.refl _)

/-- A file is loaded, changed, loaded in another mode, deleted, and written as it was before. -/
def rewrittenHistory : List (LoaderEvent Bool) :=
  let file : Pathname := Pathname.read "/data/a.json"
  let load (mode : LoadMode) (validate : Bool) (base : Option String) : LoaderEvent Bool :=
    .load file ⟨"a", mode.name, base, validate⟩
  [.write file (Utf8.encode "[]") (some (.set 1)), load .raw false (some "/data"),
    load .raw false (some "/data"), load .object false (some "/data"),
    .write file (Utf8.encode "null") (some (.set 2)), load .raw false none, .delete file,
    load .raw false none, .write file (Utf8.encode "[]") (some (.set 1)), load .raw false none,
    .setVariable "DATA_DIR" "/elsewhere", load .raw false none, .unsetVariable "DATA_DIR",
    .clearCache, load .raw false none, load .raw true none]

/-- The kinds of the values that are loaded. -/
def kinds (results : List (Except LoadError Loaded)) : List (Option Json.Kind) :=
  results.map fun
    | .ok (.document v) => some v.kind
    | _ => none

/-- The file is seen as it is each time, also when its first content comes back under its first time. -/
theorem results_eq_uncached_rewritten :
    StampsTell (LoaderEvent.trees ⟨{}, []⟩ rewrittenHistory) ∧
      kinds (results planValidations ⟨⟨{}, []⟩, [], []⟩ rewrittenHistory)
        = [some .arr, some .arr, none, some .null, none, some .arr, none, some .arr, none] := by
  have hstamps : StampsTell (LoaderEvent.trees ⟨{}, []⟩ rewrittenHistory) := by decide +kernel
  refine ⟨hstamps, ?_⟩
  rw [results_eq_uncached planValidations ⟨{}, []⟩ [] rewrittenHistory hstamps]
  decide +kernel

end LoaderState

end StyleTokens
