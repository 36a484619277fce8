import CiPipeline.FileTree

/-!
# CiPipeline.Failure

Everything that can stop an operation of the tool.

* `ConfigError`          — why a config file gives no settings.
* `Failure`              — the causes of all operations.
* `Failure.errorClass`   — the class by which reports tell failures apart.
* `Failure.message`      — their wording.
* `Failure.diagnostic?`  — the structured report behind a failure, if there is one.
* `Failure.finalLine`, `Failure.trace` — how a trace shows a failure.
-/

namespace CiPipeline

/-- Why a directory cannot be run. -/
inductive ConfigError.Lack where
  | noProgram
  /-- A package has the name of the program. -/
  | package
  deriving DecidableEq, Repr

inductive ConfigError where
  | missing (path : Path)
  /-- The file is there, under a name that is none of a config file. -/
  | suffix (name : String)
  | noSettings
  /-- A directory with the name of a config file, and no program to run inside. -/
  | directory (path : Path) (lack : ConfigError.Lack)
  /-- The path starts from the home directory of somebody unknown. -/
  | noHome
  | raised (raised : Raised)
  deriving DecidableEq

inductive Failure where
  | model (e : ModelError)
  | stale (file : String)
  | system (e : SystemError)
  /-- A path has to be completed from a current directory that is gone. -/
  | noCurrentDirectory
  | undecodable (fault : Utf8.Fault)
  | config (e : ConfigError)
  deriving DecidableEq

def ModelError.errorClass : ModelError → ErrorClass
  | invalidKey _ => .workflowError
  | unknownRef _ => .typeError
  | unknownPredicate _ => .typeError
  | unknownStep _ => .typeError
  | noScalaVersion => .indexError

namespace ConfigError

def errorClass : ConfigError → ErrorClass
  | missing _ => .fileNotFound
  | suffix _ => .valueError
  | noSettings => .typeError
  | directory _ _ => .importError
  | noHome => .runtimeError
  | raised r => r.errorClass

def message : ConfigError → String
  | missing path => "Config file not found: " ++ path.toString
  | suffix name => "Config must be a .py file, got: " ++ name
  | noSettings => "Config must return/define a Settings value. "
      ++ "Define settings() -> Settings or SETTINGS = Settings(...)."
  | directory path _ => "can't find '__main__' module in " ++ Literal.write path.toString
  | noHome => "Could not determine home directory."
  | raised r => r.message

/-- The failure that led to this one, where a trace shows it first. -/
def cause? : ConfigError → Option String
  | directory _ .noProgram => some "ImportError: No module named __main__"
  | directory _ .package => some "ImportError: Cannot use package as __main__ module"
  | _ => none

end ConfigError

namespace Failure

def errorClass : Failure → ErrorClass
  | model e => e.errorClass
  | stale _ => .workflowError
  | system e => e.cause.errorClass
  | noCurrentDirectory => .fileNotFound
  | undecodable _ => .unicodeDecodeError
  | config e => e.errorClass

def diagnostic? : Failure → Option Diagnostic
  | model (.invalidKey key) => some (Diagnostic.invalidKey key)
  | stale file => some (Diagnostic.stale file)
  | config (.raised (.diagnostic d)) => some d
  | _ => none

def message : Failure → String
  | model (.invalidKey key) => (Diagnostic.invalidKey key).summary
  | model e => e.message
  | stale file => (Diagnostic.stale file).summary
  | system e => e.message
  | noCurrentDirectory => "[Errno 2] No such file or directory"
  | undecodable fault => fault.message
  | config e => e.message

/-- The class alone for a failure without words. -/
def finalLine (failure : Failure) : String :=
  if failure.message.isEmpty then failure.errorClass.label
  else failure.errorClass.label ++ ": " ++ failure.message

def cause? : Failure → Option String
  | config e => e.cause?
  | _ => none

def traceHeader : String := "Traceback (most recent call last):\n"

/-- The part of a trace that tells of an earlier failure, and how the next one is connected with
it. -/
def earlier (line connection : String) : String :=
  traceHeader ++ line ++ "\n\n" ++ connection ++ ":\n\n"

/-- What the trace shows before the failure itself. -/
def background : Failure → String
  | system e => String.join (e.making.map fun path =>
      earlier (system { cause := .missing, path := path }).finalLine
        "During handling of the above exception, another exception occurred")
  | failure =>
    match failure.cause? with
    | none => ""
    | some cause => earlier cause
        "The above exception was the direct cause of the following exception"

def trace (failure : Failure) : String :=
  failure.background ++ traceHeader ++ failure.finalLine ++ "\n"

end Failure

end CiPipeline
