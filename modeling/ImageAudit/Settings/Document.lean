import ImageAudit.Settings
import ImageAudit.Yaml.Decode

/-! # Settings out of YAML

Settings are a mapping of fields, each with a default. Unknown fields are passed over; a text
without any document stands for the defaults.
-/

namespace ImageAudit

open Yaml

def Yaml.Document.asTexts? (document : Document) (node : Node) : Option (List String) :=
  document.asList? document.asText? node

def AffixRule.ofYaml? (document : Document) (node : Node) : Option AffixRule := do
  let pairs ← document.asPairs? node
  return ⟨← required? pairs "prefix" document.asText?,
    ← required? pairs "suffix" document.asText?⟩

/-- A policy out of YAML; what is not given is empty. -/
def ExclusionPolicy.ofYaml? (document : Document) (node : Node) : Option ExclusionPolicy := do
  let pairs ← document.asPairs? node
  return {
    paths := ← withDefault? pairs "paths" document.asTexts? []
    directories := ← withDefault? pairs "directories" document.asTexts? []
    affixes :=
      ← withDefault? pairs "prefix_suffix" (document.asList? (AffixRule.ofYaml? document)) [] }

namespace Settings

/-- Settings out of YAML; what is not given is as in the standard settings. -/
def ofYaml? (document : Document) : Option Settings := do
  let pairs ← document.asPairs? document.root
  return {
    trustedVendor := ← withDefault? pairs "trusted_vendor" document.asText? standard.trustedVendor
    exclusions :=
      ← withDefault? pairs "exclusions" (ExclusionPolicy.ofYaml? document) standard.exclusions
    maxParallelLayers :=
      ← withDefault? pairs "max_parallel_layers" document.asUInt64? standard.maxParallelLayers
    stagingRoot :=
      ← withDefault? pairs "staging_root" (document.asNullable? document.asText?)
        standard.stagingRoot
    verifyDigests := ← withDefault? pairs "verify_digests" document.asBool? standard.verifyDigests
    logLevel :=
      ← withDefault? pairs "log_level" (fun node => (document.asName? node).bind LogLevel.ofName?)
        standard.logLevel }

/-- The settings that a text gives, before they are checked. -/
def ofText? (text : String) : Option Settings := do
  match ← readDocument? text with
  | some document => ofYaml? document
  | none => return standard

/-- The settings that a text gives, if they can be used. -/
def parse (text : String) : Except Failure Settings :=
  match ofText? text with
  | some settings => settings.validate
  | none => .error (.serialization "not a document of settings")

/-- The settings in a file; there is none without content. -/
def load (path : String) (content : Option String) : Except Failure Settings :=
  match content with
  | some text => parse text
  | none =>
    .error (.settings (Fault.unreadable path "No such file or directory (os error 2)").message)

end Settings

end ImageAudit
