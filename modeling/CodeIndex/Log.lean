import CodeIndex.FileTree.Edit

/-!
# Log

A record says what happened in a part of the program and how much it matters. The console gets the
records from a level on, and so does a log file, if there is one, with their time.
-/

namespace CodeIndex

/-- How much a record matters. -/
inductive LogLevel where
  | debug
  | info
  | warning
  | error
  | critical
  deriving DecidableEq, Repr

namespace LogLevel

/-- The rank of a level: what matters more ranks higher. -/
def rank : LogLevel → Nat
  | debug => 0
  | info => 1
  | warning => 2
  | error => 3
  | critical => 4

/-- The name of a level. -/
def name : LogLevel → Text
  | debug => "DEBUG".toList
  | info => "INFO".toList
  | warning => "WARNING".toList
  | error => "ERROR".toList
  | critical => "CRITICAL".toList

/-- The level from which on records are shown. -/
def threshold (verbose quiet : Bool) : LogLevel :=
  if verbose then debug else if quiet then warning else info

end LogLevel

/-- A record of the log. -/
structure LogRecord where
  level : LogLevel
  /-- The full name of the part of the program. -/
  logger : Text
  message : Text
  deriving DecidableEq, Repr

/-- The name of the whole program in the log. -/
def rootLogger : Text := "omen".toList

/-- The full name of a part of the program. -/
def loggerName (part : Text) : Text := if part = [] then rootLogger else rootLogger ++ '.' :: part

namespace LogRecord

/-- The record as a line, with the part of the program that made it. -/
def line (r : LogRecord) : Text := r.level.name ++ ' ' :: r.logger ++ ": ".toList ++ r.message

/-- The record as a line on the console. -/
def consoleLine (r : LogRecord) : Text :=
  "[omen] ".toList ++ r.level.name ++ ' ' :: r.message ++ ['\n']

/-- The record as a line of a log file, with its time. -/
def fileLine (time : Text) (r : LogRecord) : Text := time ++ ' ' :: r.line ++ ['\n']

end LogRecord

/-- What becomes of log records. -/
structure LogSettings where
  threshold : LogLevel
  /-- The path of the log file. -/
  file : Option Text := none
  deriving DecidableEq, Repr

namespace LogSettings

/-- The settings that two switches and the path of a log file ask for. The log file is made. -/
def configure (verbose quiet : Bool) (file : Option Text) : FileEdit LogSettings := do
  if let some path := file then
    Edit.makeDirectories (Path.parent path)
    Edit.appendFile path []
  return { threshold := .threshold verbose quiet, file }

/-- The records that matter enough. -/
def shown (s : LogSettings) (records : List LogRecord) : List LogRecord :=
  records.filter fun r => s.threshold.rank ≤ r.level.rank

/-- What the console shows of some records. -/
def console (s : LogSettings) (records : List LogRecord) : Text :=
  (s.shown records).flatMap LogRecord.consoleLine

/-- Some records in the log file, if there is one. -/
def record (s : LogSettings) (time : Text) (records : List LogRecord) : FileEdit Unit :=
  match s.file with
  | none => return
  | some path =>
    Edit.appendFile path (Utf8.encode ((s.shown records).flatMap (LogRecord.fileLine time)))

end LogSettings

end CodeIndex
