/-! # Failures

What keeps an image from being examined. A tampered image is no failure: it is examined and
reported. `Failure.message` is the text shown to the user.
-/

namespace ImageAudit

/-- Why a run ended without a result. -/
inductive Failure where
  /-- The index, manifest, config or a layer could not be read. -/
  | imageAccess (cause : String)
  /-- A package database is there and cannot be decoded. -/
  | database (path cause : String)
  /-- Temporary files could not be written. -/
  | staging (cause : String)
  /-- The os-release text is missing or has no platform. -/
  | platform (cause : String)
  /-- The run was asked to stop. -/
  | cancelled
  /-- The run took too long. -/
  | timeout (cause : String)
  /-- The settings are not usable. -/
  | settings (cause : String)
  /-- A document is not of the expected form. -/
  | serialization (cause : String)
  /-- A file could not be read or written. -/
  | io (cause : String)
  deriving DecidableEq, Repr

namespace Failure

def message : Failure → String
  | imageAccess cause => "Image access error: " ++ cause
  | database path cause => "Package database parse error: " ++ path ++ " - " ++ cause
  | staging cause => "Filesystem staging error: " ++ cause
  | platform cause => "Platform metadata error: " ++ cause
  | cancelled => "Check cancelled"
  | timeout cause => "Timeout: " ++ cause
  | settings cause => "Configuration error: " ++ cause
  | serialization cause => "Serialization error: " ++ cause
  | io cause => "I/O error: " ++ cause

def isAbort : Failure → Bool
  | cancelled | timeout _ => true
  | _ => false

end Failure

end ImageAudit
