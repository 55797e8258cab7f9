/-!
# Errors of configuration

What can be wrong with a setting, with the text that a configuration is read from, or with the file
that holds the text. An error gathers contexts on its way out; its *root* is the error without them.
-/

namespace Dataflow

/-- Why a file gives no text. -/
inductive FileFault where
  | missing
  | isFolder
  | notText
  | nulInName
  | nameTooLong
  deriving DecidableEq

/-- The wording of a file fault. -/
def FileFault.message : FileFault → String
  | .missing => "No such file or directory (os error 2)"
  | .isFolder => "Is a directory (os error 21)"
  | .notText => "stream did not contain valid UTF-8"
  | .nulInName => "file name contained an unexpected NUL byte"
  | .nameTooLong => "File name too long (os error 36)"

/-- An error of configuration. -/
inductive ConfigError where
  | unknownKey (key : String)
  | duplicateKey (key : String)
  | badValue (key value reason : String)
  | invalid (text : String)
  | malformedToml
  | malformedJson
  | file (fault : FileFault)
  | inContext (context : String) (cause : ConfigError)
  deriving DecidableEq

namespace ConfigError

/-- The wording of an error. Contexts come first, the outermost in front. -/
def message : ConfigError → String
  | unknownKey key => "Unknown configuration key: " ++ key
  | duplicateKey key => "Duplicate configuration key: " ++ key
  | badValue key value reason =>
    "Bad value conversion for '" ++ key ++ "' (value '" ++ value ++ "'): " ++ reason
  | invalid text => "Configuration error: " ++ text
  | malformedToml => "TOML parse error"
  | malformedJson => "Serialization error"
  | file fault => "IO error: " ++ fault.message
  | inContext context cause => context ++ ": " ++ cause.message

/-- The error without its contexts. -/
def root : ConfigError → ConfigError
  | inContext _ cause => cause.root
  | e => e

/-- The contexts, the outermost first. -/
def contexts : ConfigError → List String
  | inContext context cause => context :: cause.contexts
  | _ => []

/-- The short label of an error, which its contexts do not change. -/
def kind : ConfigError → String
  | unknownKey _ => "unknown configuration key"
  | duplicateKey _ => "duplicate configuration key"
  | badValue _ _ _ => "bad value conversion"
  | inContext _ cause => cause.kind
  | invalid _ | malformedToml | malformedJson | file _ => "configuration"

end ConfigError

end Dataflow
