import ObjectDepot.Text.Decimal
import ObjectDepot.Text.Quoted

/-!
# Arguments of the command line

`Arguments.parse` reads the words of a command line: a command, and options anywhere. A long option
may be cut short as long as it stays unique, a value may follow an option in the same word, and of a
repeated option the last value counts. The mark `--` is a word after which no word is an option.
-/

namespace ObjectDepot.CommandLine

/-- The commands. -/
inductive Command where
  | create
  | add
  | cat
  | setRef
  | deleteRef
  | showRef
  | lsRefs
  | setDefaultBranch
  deriving DecidableEq

/-- The commands with their names, in the order in which a message lists them. -/
def commands : List (String × Command) :=
  [("create", .create), ("add", .add), ("cat", .cat), ("set-ref", .setRef),
    ("delete-ref", .deleteRef), ("show-ref", .showRef), ("ls-refs", .lsRefs),
    ("set-default-branch", .setDefaultBranch)]

/-- What a command asks for besides a repository. -/
def Command.needs : Command → String
  | .create | .lsRefs => "nothing is missing"
  | .add => "add requires a -p path"
  | .cat => "cat requires a -H hash"
  | .setRef => "set-ref requires -n name and -H hash"
  | .deleteRef => "delete-ref requires -n name"
  | .showRef => "show-ref requires -n name"
  | .setDefaultBranch => "set-default-branch requires -n name"

/-- The options. -/
inductive Flag where
  | help
  | repository
  | path
  | name
  | hash
  | sha1
  deriving DecidableEq

/-- The spellings of an option. -/
def Flag.spellings : Flag → List String
  | .help => ["-h", "--help"]
  | .repository => ["-r", "--repo_name"]
  | .path => ["-p", "--path"]
  | .name => ["-n", "--name"]
  | .hash => ["-H", "--hash"]
  | .sha1 => ["--sha1"]

/-- Whether an option has a value. -/
def Flag.takesValue : Flag → Bool
  | .help | .sha1 => false
  | _ => true

/-- An option in a message. -/
def Flag.display (flag : Flag) : String :=
  "/".intercalate flag.spellings

/-- All spellings with their options, in the order in which a message lists them. -/
def spellings : List (String × Flag) :=
  [Flag.help, .repository, .path, .name, .hash, .sha1].flatMap fun flag =>
    flag.spellings.map (·, flag)

/-- What is wrong with a command line. -/
inductive Mistake where
  | ambiguous (word : String) (matching : List String)
  | expectedArgument (flag : Flag)
  | ignoredArgument (flag : Flag) (value : String)
  | invalidCommand (word : String)
  | missing (names : List String)
  | unrecognized (words : List String)
  | incomplete (command : Command)
  deriving DecidableEq

/-- The words for a mistake. -/
def Mistake.message : Mistake → String
  | .ambiguous word matching =>
    "ambiguous option: " ++ word ++ " could match " ++ ", ".intercalate matching
  | .expectedArgument flag => "argument " ++ flag.display ++ ": expected one argument"
  | .ignoredArgument flag value =>
    "argument " ++ flag.display ++ ": ignored explicit argument " ++ Text.quoted value
  | .invalidCommand word =>
    "argument command: invalid choice: " ++ Text.quoted word ++ " (choose from "
      ++ ", ".intercalate (commands.map fun (name, _) => Text.quoted name) ++ ")"
  | .missing names => "the following arguments are required: " ++ ", ".intercalate names
  | .unrecognized words => "unrecognized arguments: " ++ " ".intercalate words
  | .incomplete command => command.needs

/-- Why a command line is not carried out. -/
inductive Stop where
  | help
  | mistake (mistake : Mistake)
  deriving DecidableEq

/-- A value in the word of its option: right after a short spelling, with or without an equals sign
between them, or after the equals sign of a long one. -/
inductive Attached where
  | nothing
  | toShort (value : String)
  | toLong (value : String)
  deriving DecidableEq

/-- What a word is: the mark after which no word is an option, no option, an option, or a word that
looks like an option and is none. -/
inductive Word where
  | mark
  | plain (text : String)
  | option (flag : Flag) (attached : Attached)
  | unknown (text : String)
  deriving DecidableEq

/-- Whether a word is a negative number: a minus, and decimal digits with at most one point, the
last of which is a digit; one line feed may follow. -/
def isNegativeNumber (word : List Char) : Bool :=
  match word with
  | '-' :: rest =>
    let body := if rest.getLast? = some '\n' then rest.dropLast else rest
    match body.dropWhile Text.isDecimal with
    | [] => !body.isEmpty
    | '.' :: decimals => !decimals.isEmpty && decimals.all Text.isDecimal
    | _ => false
  | _ => false

/-- Cuts a word at its first equals sign. -/
def splitEquals (word : List Char) : List Char × Option String :=
  (word.takeWhile (· != '='),
    match word.dropWhile (· != '=') with
    | _ :: value => some (String.ofList value)
    | [] => none)

/-- A value joined to a spelling, if there is one. -/
def Attached.of (spelling : List Char) : Option String → Attached
  | none => .nothing
  | some value => if "--".toList.isPrefixOf spelling then .toLong value else .toShort value

/-- The options that a word may mean that is no spelling: a long option by its start, a short one
by its first two characters. -/
def candidates (word : List Char) : List (String × Word) :=
  let (start, value) := splitEquals word
  if "--".toList.isPrefixOf word then
    (spellings.filter fun (spelling, _) => start.isPrefixOf spelling.toList).map
      fun (spelling, flag) => (spelling, .option flag (.of start value))
  else
    (spellings.filter fun (spelling, _) => spelling.toList = word.take 2).map
      fun (spelling, flag) => (spelling, .option flag (.toShort (String.ofList (word.drop 2))))

/-- What a word before the mark is. -/
def classify (text : String) : Except Stop Word :=
  let word := text.toList
  if word.head? ≠ some '-' then .ok (.plain text)
  else
    match spellings.lookup text with
    | some flag => .ok (.option flag .nothing)
    | none =>
      if word.length = 1 then .ok (.plain text)
      else
        let (start, value) := splitEquals word
        match value, spellings.lookup (String.ofList start) with
        | some value, some flag => .ok (.option flag (.of start (some value)))
        | _, _ =>
          match candidates word with
          | [(_, candidate)] => .ok candidate
          | [] =>
            if isNegativeNumber word || word.contains ' ' then .ok (.plain text)
            else .ok (.unknown text)
          | several => .error (.mistake (.ambiguous text (several.map Prod.fst)))

/-- What the words of a command line are. -/
def classifyAll : List String → Except Stop (List Word)
  | [] => .ok []
  | "--" :: rest => .ok (.mark :: rest.map .plain)
  | text :: rest => do
    let word ← classify text
    return word :: (← classifyAll rest)

/-- The value of an option. A value that is joined to its option and is the mark is struck out. -/
inductive OptionValue where
  | text (value : String)
  | struckOut
  deriving DecidableEq

/-- The value that is joined to an option. -/
def OptionValue.joined (value : String) : OptionValue :=
  if value = "--" then .struckOut else .text value

/-- The text of a value, unless it is struck out. -/
def OptionValue.text? : OptionValue → Option String
  | .text value => some value
  | .struckOut => none

/-- What has been read of a command line. -/
structure Draft where
  command : Option Command
  repository : Option OptionValue
  path : Option OptionValue
  name : Option OptionValue
  hash : Option OptionValue
  sha1 : Bool
  extras : List String
  deriving DecidableEq

/-- Nothing read. -/
def Draft.empty : Draft := ⟨none, none, none, none, none, false, []⟩

/-- Takes in an option that has no value. -/
def Draft.switchOn (draft : Draft) (flag : Flag) : Draft :=
  { draft with sha1 := draft.sha1 || flag == .sha1 }

/-- Takes in an option with its value. -/
def Draft.set (draft : Draft) (flag : Flag) (value : OptionValue) : Draft :=
  match flag with
  | .repository => { draft with repository := some value }
  | .path => { draft with path := some value }
  | .name => { draft with name := some value }
  | .hash => { draft with hash := some value }
  | .help | .sha1 => draft

/-- Takes in a word that is left over. -/
def Draft.leave (draft : Draft) (word : String) : Draft :=
  { draft with extras := draft.extras ++ [word] }

/-- Takes in the command. -/
def Draft.setCommand (draft : Draft) (word : String) : Except Stop Draft :=
  match commands.lookup word with
  | some command => .ok { draft with command := some command }
  | none => .error (.mistake (.invalidCommand word))

/-- Where the characters lead that follow a short help option in its word. Each is a short option
again, and the first that has a value takes what is left of the word, or else the `next` word. -/
def readCluster (next : Option Word) : List Char → Stop
  | [] => .help
  | c :: rest =>
    match spellings.lookup (String.ofList ['-', c]) with
    | none => .mistake (.ignoredArgument .help (String.ofList (c :: rest)))
    | some flag =>
      if flag.takesValue then
        match rest, next with
        | _ :: _, _ | [], some (.plain _) => .help
        | [], _ => .mistake (.expectedArgument flag)
      else readCluster next rest

/-- Where an option leads that has no value of its own. -/
def stopAt? (flag : Flag) (attached : Attached) (next : Option Word) : Option Stop :=
  match flag, attached with
  | .help, .nothing => some .help
  | _, .nothing => none
  | .help, .toShort value =>
    if value.isEmpty then some (.mistake (.ignoredArgument .help value))
    else some (readCluster next value.toList)
  | flag, .toShort value | flag, .toLong value => some (.mistake (.ignoredArgument flag value))

/-- The text of a word that is left over. -/
def Word.text : Word → String
  | .mark => "--"
  | .plain text | .unknown text => text
  | .option flag _ => flag.display

/-- Whether a word is an option or looks like one. -/
def Word.isOption : Word → Bool
  | .option .. | .unknown _ => true
  | _ => false

/-- Takes in the words after the last option: the command, if it is still open, may have the mark
on either side. -/
def readRest (draft : Draft) (words : List Word) : Except Stop Draft :=
  let leaveAll (draft : Draft) (words : List Word) : Draft :=
    words.foldl (fun draft word => draft.leave word.text) draft
  match draft.command, words with
  | none, .mark :: .plain text :: rest | none, .plain text :: .mark :: rest
  | none, .plain text :: rest => do
    return leaveAll (← draft.setCommand text) rest
  | _, words => .ok (leaveAll draft words)

/-- Takes in words from the first to the last. -/
def readWords : Draft → List Word → Except Stop Draft
  | draft, [] => .ok draft
  | draft, .unknown text :: rest => readWords (draft.leave text) rest
  | draft, .option flag attached :: rest =>
    if flag.takesValue then
      match attached, rest with
      | .toShort value, rest | .toLong value, rest =>
        readWords (draft.set flag (.joined value)) rest
      | .nothing, .plain value :: rest => readWords (draft.set flag (.text value)) rest
      | .nothing, _ => .error (.mistake (.expectedArgument flag))
    else
      match stopAt? flag attached rest.head? with
      | some stop => .error stop
      | none => readWords (draft.switchOn flag) rest
  | draft, word :: rest =>
    if rest.any Word.isOption then
      match draft.command with
      | none => do
        let draft ← draft.setCommand word.text
        readWords draft rest
      | some _ => readWords (draft.leave word.text) rest
    else readRest draft (word :: rest)

/-- A command line that has all it must have. -/
structure Arguments where
  command : Command
  repository : OptionValue
  path : Option OptionValue
  name : Option OptionValue
  hash : Option OptionValue
  sha1 : Bool
  deriving DecidableEq

/-- A draft as a command line, if nothing is missing and nothing is left over. -/
def Draft.finish (draft : Draft) : Except Stop Arguments :=
  match draft.command, draft.repository with
  | some command, some repository =>
    if draft.extras.isEmpty then
      .ok ⟨command, repository, draft.path, draft.name, draft.hash, draft.sha1⟩
    else .error (.mistake (.unrecognized draft.extras))
  | command, repository =>
    .error (.mistake (.missing ((if command.isNone then ["command"] else [])
      ++ (if repository.isNone then [Flag.repository.display] else []))))

/-- Reads the words of a command line. -/
def Arguments.parse (words : List String) : Except Stop Arguments := do
  (← readWords Draft.empty (← classifyAll words)).finish

end ObjectDepot.CommandLine
