/-! What can be wrong with a configuration, and what helps against it. -/

namespace DoubleEntry

/-- Why a configuration cannot be used. -/
inductive ConfigError where
  | notFound (path : String)
  | invalidYaml
  | invalidValue (field reason : String)
  | unreadable
  deriving DecidableEq

namespace ConfigError

def code : ConfigError → String
  | notFound _ => "FILE_NOT_FOUND"
  | invalidYaml => "INVALID_YAML"
  | invalidValue _ _ => "INVALID_VALUE"
  | unreadable => "IO_ERROR"

def message : ConfigError → String
  | notFound path => s!"Config file not found: {path}"
  | invalidYaml => "Invalid YAML format"
  | invalidValue field reason => s!"Invalid field value: {field} - {reason}"
  | unreadable => "IO error occurred"

def field? : ConfigError → Option String
  | invalidValue field _ => some field
  | _ => none

def suggestions : ConfigError → List String
  | notFound _ => ["Check if the config file path is correct.",
    "Use --config to point at another file, or omit it to use defaults."]
  | invalidYaml => ["See the bundled default_config.yaml for the expected layout."]
  | invalidValue _ reason => [reason]
  | unreadable => []

def details (error : ConfigError) : String :=
  s!"[{error.code}] {error.message}" ++
    (error.field?.elim "" fun field => s!"\nField: {field}") ++
    String.join (error.suggestions.map ("\n  - " ++ ·))

end ConfigError

end DoubleEntry
