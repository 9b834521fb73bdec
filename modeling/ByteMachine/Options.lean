import ByteMachine.Config.Basic
import ByteMachine.Text.Digit

/-!
Command line options.  Each argument is first told apart as a switch, a plain argument or a
separator; then the arguments are read from left to right.  The one plain argument that is allowed
names an image, as the switch for loading does; the last image named is the one that counts.
-/

namespace ByteMachine

inductive Switch where
  | help
  | load
  | save
  | debug
  | noPause
  | config
  | logLevel
  deriving DecidableEq, Repr

namespace Switch

def all : List Switch := [help, load, save, debug, noPause, config, logLevel]

def names : Switch → List String
  | help => ["-h", "--help"]
  | load => ["-l", "--load"]
  | save => ["-s", "--save"]
  | debug => ["-d", "--debug"]
  | noPause => ["--no-pause"]
  | config => ["-c", "--config"]
  | logLevel => ["--log-level"]

def takesValue : Switch → Bool
  | load | save | config | logLevel => true
  | help | debug | noPause => false

def label (switch : Switch) : String := "/".intercalate switch.names

def spellings : List (String × Switch) :=
  all.flatMap fun switch => switch.names.map (·, switch)

def ofName? (name : String) : Option Switch := spellings.lookup name

def ofLetter? (letter : Char) : Option Switch := ofName? (String.ofList ['-', letter])

end Switch

inductive UsageError where
  | ambiguous (argument : String) (candidates : List String)
  | missingValue (switch : Switch)
  | ignoredValue (switch : Switch) (value : String)
  | unrecognized (arguments : List String)
  deriving DecidableEq, Repr

def UsageError.message : UsageError → String
  | ambiguous argument candidates =>
    s!"ambiguous option: {argument} could match " ++ ", ".intercalate candidates
  | missingValue switch => s!"argument {switch.label}: expected one argument"
  | ignoredValue switch value =>
    s!"argument {switch.label}: ignored explicit argument {Text.quoted value}"
  | unrecognized arguments => "unrecognized arguments: " ++ " ".intercalate arguments

/-! Telling arguments apart -/

def separatorMark : String := "--"

inductive Word where
  | plain (text : String)
  | separator
  | known (switch : Switch) (long : Bool) (attached : Option String)
  | unknown (text : String)
  deriving DecidableEq, Repr

def splitEquals (text : String) : Option (String × String) :=
  let (name, rest) := text.toList.span (· ≠ '=')
  match rest with
  | _ :: value => some (String.ofList name, String.ofList value)
  | [] => none

def isNegativeNumber (text : String) : Bool :=
  let isDigit (c : Char) : Bool := (Text.decimalDigit? c).isSome
  match text.toList with
  | '-' :: rest =>
    let rest := if rest.getLast? = some '\n' then rest.dropLast else rest
    match rest.dropWhile isDigit with
    | [] => !rest.isEmpty
    | '.' :: fraction => !fraction.isEmpty && fraction.all isDigit
    | _ => false
  | _ => false

def longCandidates (name : String) : List (String × Switch) :=
  Switch.spellings.filter fun (spelling, _) => name.isPrefixOf spelling

namespace Word

/-- A word that is no switch: numbers and texts with spaces are plain. -/
def ofStranger (text : String) : Word :=
  if isNegativeNumber text || text.contains ' ' then .plain text else .unknown text

def ofLong (text : String) : Except UsageError Word :=
  let (name, attached) :=
    match splitEquals text with
    | some (name, value) => (name, some value)
    | none => (text, none)
  match longCandidates name with
  | [] => .ok (ofStranger text)
  | [(_, switch)] => .ok (.known switch true attached)
  | candidates => .error (.ambiguous text (candidates.map Prod.fst))

def ofShort (text : String) (letter : Char) (rest : List Char) : Word :=
  match Switch.ofLetter? letter with
  | some switch => .known switch false (some (String.ofList rest))
  | none => ofStranger text

def ofAssignment? (text : String) : Option Word := do
  let (name, value) ← splitEquals text
  let switch ← Switch.ofName? name
  return .known switch (name.startsWith "--") (some value)

def ofArgument (text : String) : Except UsageError Word :=
  match Switch.ofName? text with
  | some switch => .ok (.known switch (text.startsWith "--") none)
  | none =>
    match text.toList with
    | '-' :: second :: rest =>
      match ofAssignment? text with
      | some word => .ok word
      | none => if second = '-' then ofLong text else .ok (ofShort text second rest)
    | _ => .ok (.plain text)

def ofArguments : List String → Except UsageError (List Word)
  | [] => .ok []
  | text :: rest =>
    if text = separatorMark then .ok (.separator :: rest.map .plain)
    else do return (← ofArgument text) :: (← ofArguments rest)

end Word

/-! Reading -/

/-- Parsers differ in one respect: early ones drop a value that is attached to its switch if it
looks like the separator. -/
inductive Release where
  | early
  | late
  deriving DecidableEq, Repr

inductive Given where
  | absent
  | blank
  | text (value : String)
  deriving DecidableEq, Repr

namespace Given

def value? : Given → Option String
  | text value => if value = "" then none else some value
  | absent | blank => none

def ofAttached : Release → String → Given
  | .early, value => if value = separatorMark then blank else text value
  | .late, value => text value

end Given

structure Options where
  load : Given := .absent
  save : Given := .absent
  debug : Bool := false
  noPause : Bool := false
  config : Given := .absent
  logLevel : Given := .absent
  deriving DecidableEq, Repr

namespace Options

def enable (options : Options) : Switch → Options
  | .debug => { options with debug := true }
  | .noPause => { options with noPause := true }
  | _ => options

/-- Takes the image that an argument names.  An argument that names none leaves the last one. -/
def takeImage (options : Options) (value : Given) : Options :=
  if value ≠ .absent then { options with load := value } else options

def assign (options : Options) (value : Given) : Switch → Options
  | .load => options.takeImage value
  | .save => { options with save := value }
  | .config => { options with config := value }
  | .logLevel => { options with logLevel := value }
  | _ => options

end Options

structure Joined where
  enabled : List Switch
  last : Switch
  attached : Option String
  deriving DecidableEq, Repr

namespace Joined

/-- Takes joined switches apart.  The first one that takes a value takes all the rest. -/
def ofLetters (switch : Switch) (attached : List Char) : Except UsageError Joined :=
  match attached with
  | [] => .ok ⟨[], switch, none⟩
  | letter :: rest =>
    if switch.takesValue then .ok ⟨[], switch, some (String.ofList attached)⟩
    else
      match Switch.ofLetter? letter with
      | some next => (ofLetters next rest).map fun joined =>
        { joined with enabled := switch :: joined.enabled }
      | none => .error (.ignoredValue switch (String.ofList attached))

def ofSwitch (switch : Switch) (long : Bool) (attached : Option String) :
    Except UsageError Joined :=
  match attached with
  | none => .ok ⟨[], switch, none⟩
  | some value =>
    if switch.takesValue then .ok ⟨[], switch, some value⟩
    else if long ∨ value = "" then .error (.ignoredValue switch value)
    else ofLetters switch value.toList

end Joined

structure Progress where
  options : Options := {}
  /-- A switch whose value has to be the next word. -/
  awaiting : Option Switch := none
  imageMet : Bool := false
  /-- It was the last word. -/
  afterImage : Bool := false
  strangers : List String := []
  deriving DecidableEq, Repr

inductive Stop where
  | help
  | usage (error : UsageError)
  deriving DecidableEq, Repr

namespace Progress

def assign (progress : Progress) (value : Given) (switch : Switch) : Progress :=
  { progress with options := progress.options.assign value switch, awaiting := none }

def enable (progress : Progress) (switches : List Switch) : Progress :=
  { progress with options := switches.foldl Options.enable progress.options }

def stranger (progress : Progress) (text : String) : Progress :=
  { progress with strangers := progress.strangers ++ [text] }

/-- The first plain argument names an image, the others are unknown. -/
def plain (progress : Progress) (text : String) : Progress :=
  if progress.imageMet then progress.stranger text
  else { progress with
    options := progress.options.takeImage (.text text), imageMet := true, afterImage := true }

def switches (release : Release) (progress : Progress) (joined : Joined) : Progress :=
  if joined.last.takesValue then
    match joined.attached with
    | some value => progress.assign (.ofAttached release value) joined.last
    | none => { progress with awaiting := some joined.last }
  else progress.enable [joined.last]

/-- Reads a word when no switch waits for a value.  A separator is passed over in front of the image
argument and right behind it. -/
def word (release : Release) (progress : Progress) (afterImage : Bool) :
    Word → Except Stop Progress
  | .plain text => .ok (progress.plain text)
  | .separator =>
    if progress.imageMet ∧ ¬afterImage then .ok (progress.stranger separatorMark)
    else .ok progress
  | .unknown text => .ok (progress.stranger text)
  | .known switch long attached =>
    match Joined.ofSwitch switch long attached with
    | .error e => .error (.usage e)
    | .ok joined =>
      if .help ∈ joined.enabled ∨ joined.last = .help then .error .help
      else .ok ((progress.enable joined.enabled).switches release joined)

def step (release : Release) (progress : Progress) (word : Word) : Except Stop Progress :=
  match progress.awaiting, word with
  | some switch, .plain value => .ok (progress.assign (.text value) switch)
  | some switch, _ => .error (.usage (.missingValue switch))
  | none, word =>
    { progress with afterImage := false }.word release progress.afterImage word

/-- A plain argument that has not been met is read behind the last word, without a value. -/
def closed (progress : Progress) : Options :=
  if progress.imageMet then progress.options else progress.options.takeImage .absent

def finish (progress : Progress) : Except Stop Options :=
  match progress.awaiting with
  | some switch => .error (.usage (.missingValue switch))
  | none =>
    if progress.strangers.isEmpty then .ok progress.closed
    else .error (.usage (.unrecognized progress.strangers))

end Progress

namespace Options

def ofWords (release : Release) (words : List Word) : Except Stop Options := do
  (← words.foldlM (Progress.step release) {}).finish

def ofArguments (release : Release) (arguments : List String) : Except Stop Options :=
  match Word.ofArguments arguments with
  | .ok words => ofWords release words
  | .error e => .error (.usage e)

end Options

namespace Options

/-- What options change in a configuration.  With dumps switched on, progress is reported too,
unless something else is said about the level. -/
def adjust (options : Options) (config : Config) : Config :=
  let level :=
    match options.logLevel.value? with
    | some name => Text.upper name
    | none =>
      if options.debug ∧ options.logLevel = .absent ∧ config.level = "WARNING" then "INFO"
      else config.level
  { config with
    load := (options.load.value?.map Value.text).getD config.load
    save := (options.save.value?.map Value.text).getD config.save
    traceEnabled := config.traceEnabled || options.debug
    tracePause := config.tracePause && !options.noPause
    level }

end Options

end ByteMachine
