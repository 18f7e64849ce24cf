import Bir.Program.Summary
import Bir.Script
import Bir.Token.Listing

/-!
# Command line — what the program does with its arguments

A call of the program runs a script, lists the tokens of a file, sums a file up, or says how it is
called. This file defines:

* `Command` and `Command.ofArguments` — what is asked for;
* `Invocation` and `Answer` — what the program is given, and what it leaves behind;
* `CommandLine.readSource` — the text of a file, or a diagnostic;
* `CommandLine.answer` — from the one to the other.

A word that names no command is the path of a script.
-/

namespace Bir

/-! ## Commands -/

/-- What a file can be looked at for. -/
inductive View where
  | tokens
  | summary
  deriving DecidableEq, Repr, Inhabited

/-- The word that asks for a view. -/
def View.word : View → String
  | .tokens => "lex"
  | .summary => "parse"

/-- What is asked of the program. -/
inductive Command where
  | nothing
  | help
  | version
  | inspect (view : View) (path : Option Path)
  | run (script : Path)
  deriving DecidableEq, Repr, Inhabited

namespace Command

/-- The words that ask for help. -/
def helpWords : List String := ["help", "--help", "-h"]

/-- The words that ask for the version. -/
def versionWords : List String := ["version", "--version", "-V"]

/-- What arguments ask for; those that are not needed are ignored. -/
def ofArguments : List String → Command
  | [] => .nothing
  | word :: rest =>
    if word ∈ helpWords then .help
    else if word ∈ versionWords then .version
    else if word = View.tokens.word then .inspect .tokens rest.head?
    else if word = View.summary.word then .inspect .summary rest.head?
    else .run word

end Command

/-- What the program is given. -/
structure Invocation where
  arguments : List String := []
  /-- The variables of the environment; of several with one name the last counts. -/
  environment : List (String × String) := []
  files : FileTree := {}
  input : List UInt8 := []
  deriving Inhabited

namespace Invocation

/-- The value of an environment variable. -/
def setting? (invocation : Invocation) (name : String) : Option String :=
  invocation.environment.reverse.lookup name

/-- The variable that names the library directory. -/
def libraryVariable : String := "BIR_STDLIB"

/-- The configuration of a run. An empty variable counts as unset. -/
def config (invocation : Invocation) : Config :=
  match invocation.setting? libraryVariable with
  | none => {}
  | some library => if library.isEmpty then {} else { library }

end Invocation

/-- What the program leaves behind. -/
structure Answer where
  status : UInt8 := 0
  output : ByteArray := .empty
  errors : String := ""
  deriving Inhabited

namespace CommandLine

/-! ## Texts -/

/-- The version. -/
def version : String := "0.1.0-alpha.8"

/-- How the program is called. -/
def usage : String :=
  "Bir interpreter\n"
    ++ "\n"
    ++ "Usage: bir <script>\n"
    ++ "\n"
    ++ "Commands:\n"
    ++ "  <script>        Run a Bir script\n"
    ++ "  lex <file>      Tokenize and display tokens\n"
    ++ "  parse <file>    Parse and display a summary\n"
    ++ "  help            Show this help message\n"
    ++ "  version         Show version information\n"
    ++ "\n"
    ++ "Environment:\n"
    ++ "  BIR_STDLIB      Directory searched by `use` (default: ./bir)\n"
    ++ "  BIR_LOG         Log filter, e.g. `bir_eval=debug` (falls back to RUST_LOG)\n"
    ++ "  BIR_LOG_TREE    Show logs as an indented span tree\n"

/-! ## Answers -/

/-- Success, with text for the standard output. -/
def shown (text : String) : Answer := { output := text.toUTF8 }

/-- Failure, with text for the standard error. -/
def refused (errors : String) : Answer := { status := 1, errors }

/-- A diagnostic without a source. -/
def alone (diagnostic : Diagnostic) : String := ({} : Terminal).render diagnostic

/-- A diagnostic shown against the file it is about. -/
def against (path : Path) (source : String) (diagnostic : Diagnostic) : String :=
  ({ source := some source, file := some path } : Terminal).render diagnostic

/-- What is wrong with a path that cannot be read. -/
def complaint (path : Path) : ReadError → String
  | .notFound => "cannot find file '" ++ path ++ "'"
  | .permissionDenied => "permission denied reading '" ++ path ++ "'"
  | .invalidText => "'" ++ path ++ "' contains invalid UTF-8 data"
  | error => "error reading '" ++ path ++ "': " ++ error.reason

/-- The text of a file. -/
def readSource (files : FileTree) (path : Path) : Except Diagnostic String :=
  match files.read path with
  | .ok text => .ok text
  | .error error => .error (.error .unreadableSource (complaint path error))

/-- What a view shows of a source text. -/
def view (path : Path) (source : String) : View → Except Diagnostic String
  | .tokens =>
    match Token.scan source with
    | .ok tokens => .ok (Token.listing path tokens)
    | .error error => .error error.diagnostic
  | .summary =>
    match Program.ofSource source with
    | .ok program => .ok (program.summary path)
    | .error error => .error error.diagnostic

/-- Look at a file. -/
def inspect (files : FileTree) (which : View) (path : Path) : Answer :=
  match readSource files path with
  | .error diagnostic => refused (alone diagnostic)
  | .ok source =>
    match view path source which with
    | .ok text => shown text
    | .error diagnostic => refused (against path source diagnostic)

/-- What a run has written. -/
def written (state : State) : ByteArray := ⟨state.console.channel.written⟩

/-- Run a script; what it wrote before a failure stays written. -/
def runScript (bound : Nat) (invocation : Invocation) (path : Path) : Answer :=
  match readSource invocation.files path with
  | .error diagnostic => refused (alone diagnostic)
  | .ok source =>
    let state :=
      State.initial invocation.config invocation.files (.stream invocation.input) path source
    match Script.run bound state with
    | .done _ state => { output := written state }
    | .failed failure state =>
      { status := 1, output := written state, errors := failure.render false path source }
    | .exhausted => refused ""

/-- The answer to an invocation, whose run is no longer than `bound` allows. -/
def answer (bound : Nat) (invocation : Invocation) : Answer :=
  match Command.ofArguments invocation.arguments with
  | .nothing => refused (usage ++ alone (.error .usage "missing script path"))
  | .help => { errors := usage }
  | .version => shown ("Bir " ++ version ++ "\n")
  | .inspect view none =>
    refused ("Usage: bir " ++ view.word ++ " <file>\n"
      ++ alone (.error .usage "missing file path"))
  | .inspect view (some path) => inspect invocation.files view path
  | .run script => runScript bound invocation script

end CommandLine
end Bir
