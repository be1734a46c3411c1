/-
  EsFeatures.CommandLine.Invocation

  What a command line asks for.  The words are first told apart, then taken from
  left to right: a later value of an option replaces an earlier one, a call for
  help or a bad value ends the reading at once, and words that mean nothing are
  reported at the end.
-/
import EsFeatures.CommandLine.Word
import EsFeatures.Feature.Options

namespace EsFeatures.CommandLine

/-- One scan: what is scanned, and what is done with the results.  A setting that
    was given `--` for its value is left without one. -/
structure Job where
  input : String
  /-- The most findings that are kept of a file. -/
  limit : Option Int := some ({} : Options).resultLimit
  /-- The most characters that are kept of a snippet. -/
  snippetSize : Option Int := some ({} : Options).snippetMaxLength
  mode : Option ReportMode := some .short
  /-- The directory for a copy of the report. -/
  outputDir : Option String := none
  /-- Print the concrete tree of each file. -/
  dump : Bool := false
  /-- Only check that each file can be parsed. -/
  check : Bool := false
deriving Repr, DecidableEq

/-- A bound as it is handed on; one without a value is handed on as an empty list. -/
def boundSetting : Option Int → Options.Setting
  | some value => .integer value
  | none => .other .list

/-- The options of a job. -/
def Job.options (job : Job) : Except Options.Invalid Options :=
  Options.ofSettings (boundSetting job.limit) (boundSetting job.snippetSize)

/-- What a command line asks for. -/
inductive Invocation where
  | help
  | listFeatures
  | scan (job : Job)
deriving Repr, DecidableEq

/-! ## Reading -/

/-- What has been read so far. -/
structure Reading where
  job : Job := { input := "" }
  /-- Whether the words of the input have been read. -/
  inputRead : Bool := false
  listFeatures : Bool := false
  /-- Words that mean nothing. -/
  extras : List String := []
deriving Repr, DecidableEq

/-- Why a reading ends before the last word. -/
inductive Stop where
  | help
  | misuse (cause : Misuse)
deriving Repr, DecidableEq

namespace Reading

/-- Notes a word that means nothing. -/
def addExtra (r : Reading) (word : String) : Reading :=
  { r with extras := r.extras ++ [word] }

/-- Takes a word as the input. -/
def setInput (r : Reading) (input : String) : Reading :=
  { r with job := { r.job with input }, inputRead := true }

/-- Acts on a flag. -/
def setFlag (r : Reading) : Opt → Except Stop Reading
  | .help => .error .help
  | .listFeatures => .ok { r with listFeatures := true }
  | .dumpAst => .ok { r with job := { r.job with dump := true } }
  | .checkParser => .ok { r with job := { r.job with check := true } }
  | _ => .ok r

/-- An integer that was given as the value of an option. -/
def integerValue (option : Opt) (value : String) : Except Stop Int :=
  match Text.integer? value with
  | some n => .ok n
  | none => .error (.misuse (.notInteger option value))

/-- A report mode that was given as the value of an option. -/
def modeValue (option : Opt) (value : String) : Except Stop ReportMode :=
  match ReportMode.ofName? value with
  | some mode => .ok mode
  | none => .error (.misuse (.noChoice option value))

/-- What a value is read as; of `--` nothing is left. -/
def unlessDashes {α : Type} (read : String → Except Stop α) (value : String) :
    Except Stop (Option α) :=
  if value = "--" then .ok none else (read value).map some

/-- Acts on an option with its value. -/
def setValue (r : Reading) (option : Opt) (value : String) : Except Stop Reading :=
  match option with
  | .limit => do
    let limit ← unlessDashes (integerValue option) value
    return { r with job := { r.job with limit } }
  | .snippetSize => do
    let snippetSize ← unlessDashes (integerValue option) value
    return { r with job := { r.job with snippetSize } }
  | .output => do
    let mode ← unlessDashes (modeValue option) value
    return { r with job := { r.job with mode } }
  | .outputDir => do
    let outputDir ← unlessDashes .ok value
    return { r with job := { r.job with outputDir } }
  | _ => .ok r

/-- One thing to act on: a flag, or an option with its value. -/
inductive Action where
  | flag (option : Opt)
  | value (option : Opt) (text : String)
deriving Repr, DecidableEq

/-- Acts on one thing. -/
def act (r : Reading) : Action → Except Stop Reading
  | .flag option => r.setFlag option
  | .value option text => r.setValue option text

end Reading

/-! ## Flags in a row -/

/-- Several options behind one dash. -/
structure Cluster where
  actions : List Reading.Action
  /-- The option at the end that still has to find its value. -/
  pending : Option Opt := none
deriving Repr, DecidableEq

/-- A further option in front of a cluster. -/
def Cluster.push (action : Reading.Action) (cluster : Cluster) : Cluster :=
  { cluster with actions := action :: cluster.actions }

/-- An option that nothing is attached to. -/
def Cluster.single (option : Opt) : Cluster :=
  if option.takesValue then { actions := [], pending := some option }
  else { actions := [.flag option] }

/-- The options that begin with a flag of one dash, given what is attached to it:
    each further character is an option of its own, up to one that takes the rest
    as its value. -/
def Cluster.ofFlag (flag : Opt) : List Char → Except Misuse Cluster
  | [] => .error (.ignoredValue flag "")
  | c :: rest =>
    match Opt.ofSpelling? (String.ofList ['-', c]) with
    | none => .error (.ignoredValue flag (String.ofList (c :: rest)))
    | some next =>
      if rest.isEmpty then .ok ((Cluster.single next).push (.flag flag))
      else if next.takesValue then
        .ok { actions := [.flag flag, .value next (String.ofList rest)] }
      else (Cluster.ofFlag next rest).map (Cluster.push (.flag flag))

/-- What an option and its attached value ask for. -/
def Cluster.ofOption (option : Opt) (spelling : String) :
    Option String → Except Misuse Cluster
  | none => .ok (.single option)
  | some attached =>
    if option.takesValue then .ok { actions := [.value option attached] }
    else if spelling.toList.take 2 = ['-', '-'] then .error (.ignoredValue option attached)
    else Cluster.ofFlag option attached.toList

/-! ## The whole line -/

namespace Reading

/-- Acts on the options of a cluster, given the value for the one at its end. -/
def actOn (r : Reading) (cluster : Cluster) (last : List Action) : Except Stop Reading :=
  (cluster.actions ++ last).foldlM act r

/-- Takes the words from left to right.  The first value is the input; a `--` right
    in front of it or right behind it is dropped. -/
def readAll (r : Reading) : List Word → Except Stop Reading
  | [] => .ok r
  | .unknown text :: rest => (r.addExtra text).readAll rest
  | .value text :: rest =>
    if r.inputRead then (r.addExtra text).readAll rest
    else
      match rest with
      | .separator :: rest => (r.setInput text).readAll rest
      | rest => (r.setInput text).readAll rest
  | .separator :: rest =>
    if r.inputRead then (r.addExtra "--").readAll rest
    else r.readAll rest
  | .option option spelling attached :: rest =>
    match Cluster.ofOption option spelling attached with
    | .error cause => .error (.misuse cause)
    | .ok cluster =>
      match cluster.pending, rest with
      | none, rest => do (← r.actOn cluster []).readAll rest
      | some pending, .value text :: rest => do
        (← r.actOn cluster [.value pending text]).readAll rest
      | some pending, _ => .error (.misuse (.noValue pending))

end Reading

/-- What the words of a command line ask for. -/
def Invocation.ofWords (texts : List String) : Except Misuse Invocation := do
  let words ← Word.ofTexts texts
  match Reading.readAll {} words with
  | .error .help => return .help
  | .error (.misuse cause) => .error cause
  | .ok r =>
    if r.extras ≠ [] then .error (.unrecognized r.extras)
    else if r.listFeatures then return .listFeatures
    else if r.job.input = "" then .error .noInput
    else return .scan r.job

end EsFeatures.CommandLine
