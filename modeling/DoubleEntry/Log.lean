/-! Records of what happens while a journal is read and reported on. -/

namespace DoubleEntry

/-- How much a record matters. -/
inductive LogLevel where
  | info
  | warn
  | error
  deriving DecidableEq

/-- What a record tells of. -/
inductive LogTopic where
  | journal
  | ledger
  | fault
  deriving DecidableEq

/-- A record for whoever runs the program. -/
structure LogRecord where
  level : LogLevel
  topic : LogTopic
  message : String
  deriving DecidableEq

end DoubleEntry
