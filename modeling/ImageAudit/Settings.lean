import ImageAudit.Classifier
import ImageAudit.Exclusion
import ImageAudit.Failure

/-! # Settings

What a run is told: whose packages are trusted, which paths are left out, how many layers are read
at once, and whether blobs are checked against their digests. Settings are checked before use.
-/

namespace ImageAudit

inductive LogLevel where
  | trace
  | debug
  | info
  | warn
  | error
  deriving DecidableEq, Repr

namespace LogLevel

def name : LogLevel → String
  | trace => "trace"
  | debug => "debug"
  | info => "info"
  | warn => "warn"
  | error => "error"

/-- The level as the log shows it. -/
def label : LogLevel → String
  | trace => "TRACE"
  | debug => "DEBUG"
  | info => "INFO"
  | warn => "WARN"
  | error => "ERROR"

def all : List LogLevel := [trace, debug, info, warn, error]

def ofName? (name : String) : Option LogLevel := all.find? fun level => level.name = name

end LogLevel

structure Settings where
  trustedVendor : String
  exclusions : ExclusionPolicy
  /-- How many layers are read at once. -/
  maxParallelLayers : UInt64
  /-- Where temporary directories are made; the system's place when there is none. -/
  stagingRoot : Option String
  verifyDigests : Bool
  logLevel : LogLevel
  deriving DecidableEq

namespace Settings

/-- The settings of a run that is told nothing. -/
def standard : Settings where
  trustedVendor := standardVendor
  exclusions := ExclusionPolicy.standard
  maxParallelLayers := 4
  stagingRoot := none
  verifyDigests := true
  logLevel := .info

inductive Fault where
  | noParallelLayers
  | blankVendor
  | unreadable (path cause : String)
  deriving DecidableEq, Repr

def Fault.message : Fault → String
  | .noParallelLayers => "max_parallel_layers must be at least 1"
  | .blankVendor => "trusted_vendor must not be empty"
  | .unreadable path cause => "Failed to read " ++ path ++ ": " ++ cause

/-- The settings, if they can be used. -/
def check (settings : Settings) : Except Fault Settings :=
  if settings.maxParallelLayers = 0 then .error .noParallelLayers
  else if Text.trim settings.trustedVendor = "" then .error .blankVendor
  else .ok settings

def validate (settings : Settings) : Except Failure Settings :=
  settings.check.mapError fun fault => .settings fault.message

end Settings

end ImageAudit
