import CiPipeline.Diagnostic
import CiPipeline.Settings
import CiPipeline.Text.Utf8

/-!
# CiPipeline.ConfigFile

Config files, by what running them does.

* `Raised`          — an error that a config file raises on its own account.
* `ConfigFile`      — what a config file raises, which of the two names it defines, and its bytes.
* `ConfigFile.load` — the settings that come out of it, or why none do.

What running a file does is given, not worked out from its bytes. It comes down to an error or to
what the file defines: a file that ends the whole process, or changes anything outside of itself,
has no description.
-/

namespace CiPipeline

/-- The classes of errors, as far as the tool tells them apart or names them. -/
inductive ErrorClass where
  | typeError
  | valueError
  | keyError
  | indexError
  | runtimeError
  | importError
  | unicodeDecodeError
  | fileNotFound
  | fileExists
  | notADirectory
  | isADirectory
  | workflowError
  /-- Any other class, and none derived from those above. -/
  | other (name : String)
  deriving DecidableEq, Repr

/-- The name under which a trace shows the class. -/
def ErrorClass.label : ErrorClass → String
  | typeError => "TypeError"
  | valueError => "ValueError"
  | keyError => "KeyError"
  | indexError => "IndexError"
  | runtimeError => "RuntimeError"
  | importError => "ImportError"
  | unicodeDecodeError => "UnicodeDecodeError"
  | fileNotFound => "FileNotFoundError"
  | fileExists => "FileExistsError"
  | notADirectory => "NotADirectoryError"
  | isADirectory => "IsADirectoryError"
  | workflowError => "actionsgen.errors.WorkflowError"
  | other name => name

inductive Raised where
  | plain (errorClass : ErrorClass) (text : String)
  | diagnostic (diagnostic : Diagnostic)
  deriving DecidableEq

namespace Raised

def errorClass : Raised → ErrorClass
  | plain errorClass _ => errorClass
  | diagnostic _ => .workflowError

/-- A missing key is shown as a literal, any other text as it is. -/
def message : Raised → String
  | plain .keyError text => Literal.write text
  | plain _ text => text
  | diagnostic d => d.summary

end Raised

/-- What the name `settings` stands for. -/
inductive ConfigFile.Function where
  | returns (settings : Settings)
  | returnsOther
  | raises (raised : Raised)
  | notCallable
  deriving DecidableEq

/-- What the name `SETTINGS` stands for. -/
inductive ConfigFile.Constant where
  | settings (settings : Settings)
  | other
  deriving DecidableEq

structure ConfigFile where
  /-- Raised before anything is defined. -/
  raises : Option Raised := none
  function : Option ConfigFile.Function := none
  constant : Option ConfigFile.Constant := none
  /-- What it holds when it is read as a file. -/
  content : Bytes := []
  deriving DecidableEq

/-- Why a config file that was run gives no settings. -/
inductive ConfigFile.Failure where
  | raised (raised : Raised)
  | noSettings
  deriving DecidableEq

namespace ConfigFile

def ofConstant : Option Constant → Except Failure Settings
  | some (.settings settings) => .ok settings
  | some .other => .error .noSettings
  | none => .error .noSettings

/-- A function comes before a constant; what is no function is passed over. -/
def load (config : ConfigFile) : Except Failure Settings :=
  match config.raises with
  | some raised => .error (.raised raised)
  | none =>
    match config.function with
    | some (.returns settings) => .ok settings
    | some .returnsOther => .error .noSettings
    | some (.raises raised) => .error (.raised raised)
    | some .notCallable => ofConstant config.constant
    | none => ofConstant config.constant

end ConfigFile

end CiPipeline
