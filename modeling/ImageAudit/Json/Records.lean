import ImageAudit.CheckInfo
import ImageAudit.Image.Config
import ImageAudit.Json.Decode
import ImageAudit.Settings

/-! # The JSON form of records

Each record is written as an object with one member per field. It is read from such an object or
from an array of its fields, as `Decode` lays down.
-/

namespace ImageAudit

open Json

def Json.Value.asStrings? (value : Value) : Option (List String) := value.asList? Value.asString?

def Json.Value.strings (items : List String) : Value := Value.list Value.str items

namespace PackageKey

def toJson (key : PackageKey) : Value :=
  .record [("name", .str key.name), ("version", .str key.version), ("release", .str key.release),
    ("arch", .str key.arch)]

def ofJson? (value : Value) : Option PackageKey := do
  match ← value.fields? ["name", "version", "release", "arch"] with
  | [name, version, release, arch] =>
    return {
      name := ← name.required? Value.asString?
      version := ← version.required? Value.asString?
      release := ← release.required? Value.asString?
      arch := ← arch.required? Value.asString? }
  | _ => none

end PackageKey

namespace PackageRecord

def toJson (record : PackageRecord) : Value :=
  .record [("name", .str record.name), ("version", .str record.version),
    ("release", .str record.release), ("arch", .str record.arch),
    ("epoch", .nullable (fun epoch => .integer epoch.toInt) record.epoch),
    ("vendor", .str record.vendor), ("install_time", .integer record.installTime.toInt)]

def ofJson? (value : Value) : Option PackageRecord := do
  match ← value.fields?
    ["name", "version", "release", "arch", "epoch", "vendor", "install_time"] with
  | [name, version, release, arch, epoch, vendor, installTime] =>
    return {
      name := ← name.required? Value.asString?
      version := ← version.required? Value.asString?
      release := ← release.required? Value.asString?
      arch := ← arch.required? Value.asString?
      epoch := ← epoch.withDefault? (·.asNullable? Value.asInt32?) none
      vendor := ← vendor.withDefault? Value.asString? ""
      installTime := ← installTime.withDefault? Value.asInt64? 0 }
  | _ => none

end PackageRecord

namespace InstalledFile

def toJson (file : InstalledFile) : Value :=
  .record [("path", .str file.path), ("mode", .nat file.mode.toNat),
    ("flags", .nat file.flags.bits.toNat)]

def ofJson? (value : Value) : Option InstalledFile := do
  match ← value.fields? ["path", "mode", "flags"] with
  | [path, mode, flags] =>
    return {
      path := ← path.required? Value.asString?
      mode := ← mode.required? Value.asUInt32?
      flags := ⟨← flags.required? Value.asUInt32?⟩ }
  | _ => none

end InstalledFile

namespace InstalledPackage

def toJson (package : InstalledPackage) : Value :=
  .record [("record", package.record.toJson), ("files", .list InstalledFile.toJson package.files),
    ("dir_names", .strings package.dirNames)]

def ofJson? (value : Value) : Option InstalledPackage := do
  match ← value.fields? ["record", "files", "dir_names"] with
  | [record, files, dirNames] =>
    return {
      record := ← record.required? PackageRecord.ofJson?
      files := ← files.required? (·.asList? InstalledFile.ofJson?)
      dirNames := ← dirNames.required? Value.asStrings? }
  | _ => none

end InstalledPackage

namespace FileRecord

def toJson (file : FileRecord) : Value :=
  .record [("path", .str file.path), ("mode", .nat file.mode.toNat)]

def ofJson? (value : Value) : Option FileRecord := do
  match ← value.fields? ["path", "mode"] with
  | [path, mode] =>
    return {
      path := ← path.required? Value.asString?
      mode := ← mode.required? Value.asUInt32? }
  | _ => none

end FileRecord

namespace AffixRule

def toJson (rule : AffixRule) : Value :=
  .record [("prefix", .str rule.start), ("suffix", .str rule.suffix)]

def ofJson? (value : Value) : Option AffixRule := do
  match ← value.fields? ["prefix", "suffix"] with
  | [start, suffix] =>
    return {
      start := ← start.required? Value.asString?
      suffix := ← suffix.required? Value.asString? }
  | _ => none

end AffixRule

namespace ExclusionPolicy

def toJson (policy : ExclusionPolicy) : Value :=
  .record [("paths", .strings policy.paths), ("directories", .strings policy.directories),
    ("prefix_suffix", .list AffixRule.toJson policy.affixes)]

/-- A policy out of JSON; a list that is not given is empty. -/
def ofJson? (value : Value) : Option ExclusionPolicy := do
  match ← value.fields? ["paths", "directories", "prefix_suffix"] with
  | [paths, directories, affixes] =>
    return {
      paths := ← paths.withDefault? Value.asStrings? []
      directories := ← directories.withDefault? Value.asStrings? []
      affixes := ← affixes.withDefault? (·.asList? AffixRule.ofJson?) [] }
  | _ => none

end ExclusionPolicy

namespace LogLevel

/-- A level out of JSON: its name, or an object that maps its name to null. -/
def ofJson? : Value → Option LogLevel
  | .text content => content.bind ofName?
  | .object [(key, .null)] => key.bind ofName?
  | _ => none

end LogLevel

namespace Settings

def toJson (settings : Settings) : Value :=
  .record [("trusted_vendor", .str settings.trustedVendor),
    ("exclusions", settings.exclusions.toJson),
    ("max_parallel_layers", .nat settings.maxParallelLayers.toNat),
    ("staging_root", .nullable .str settings.stagingRoot),
    ("verify_digests", .bool settings.verifyDigests),
    ("log_level", .str settings.logLevel.name)]

/-- Settings out of JSON; what is not given is as in the standard settings. -/
def ofJson? (value : Value) : Option Settings := do
  match ← value.fields? ["trusted_vendor", "exclusions", "max_parallel_layers", "staging_root",
    "verify_digests", "log_level"] with
  | [trustedVendor, exclusions, maxParallelLayers, stagingRoot, verifyDigests, logLevel] =>
    return {
      trustedVendor := ← trustedVendor.withDefault? Value.asString? standard.trustedVendor
      exclusions := ← exclusions.withDefault? ExclusionPolicy.ofJson? standard.exclusions
      maxParallelLayers :=
        ← maxParallelLayers.withDefault? Value.asUInt64? standard.maxParallelLayers
      stagingRoot :=
        ← stagingRoot.withDefault? (·.asNullable? Value.asString?) standard.stagingRoot
      verifyDigests := ← verifyDigests.withDefault? Value.asBool? standard.verifyDigests
      logLevel := ← logLevel.withDefault? LogLevel.ofJson? standard.logLevel }
  | _ => none

end Settings

namespace Metadata

/-- The metadata as JSON; addresses that are not known are left out. -/
def toJson (metadata : Metadata) : Value :=
  .record <| [("description", .str metadata.description), ("level", .str metadata.level)] ++
    (metadata.knowledgeBaseUrl.map fun url => ("knowledge_base_url", Value.str url)).toList ++
    (metadata.checkUrl.map fun url => ("check_url", Value.str url)).toList

def ofJson? (value : Value) : Option Metadata := do
  match ← value.fields? ["description", "level", "knowledge_base_url", "check_url"] with
  | [description, level, knowledgeBaseUrl, checkUrl] =>
    return {
      description := ← description.required? Value.asString?
      level := ← level.required? Value.asString?
      knowledgeBaseUrl := ← knowledgeBaseUrl.withDefault? (·.asNullable? Value.asString?) none
      checkUrl := ← checkUrl.withDefault? (·.asNullable? Value.asString?) none }
  | _ => none

end Metadata

namespace HelpText

def toJson (help : HelpText) : Value :=
  .record [("message", .str help.message), ("suggestion", .str help.suggestion)]

def ofJson? (value : Value) : Option HelpText := do
  match ← value.fields? ["message", "suggestion"] with
  | [message, suggestion] =>
    return {
      message := ← message.required? Value.asString?
      suggestion := ← suggestion.required? Value.asString? }
  | _ => none

end HelpText

namespace ContainerDefaults

def empty : ContainerDefaults := ⟨none, none, none⟩

def toJson (defaults : ContainerDefaults) : Value :=
  .record [
    ("Labels", .nullable (fun labels => .record (labels.map fun (key, label) => (key, .str label)))
      defaults.labels),
    ("Cmd", .nullable .strings defaults.command), ("User", .nullable .str defaults.user)]

def ofJson? (value : Value) : Option ContainerDefaults := do
  match ← value.fields? ["Labels", "Cmd", "User"] with
  | [labels, command, user] =>
    return {
      labels := ← labels.withDefault? (·.asNullable? Value.asStringMap?) none
      command := ← command.withDefault? (·.asNullable? Value.asStrings?) none
      user := ← user.withDefault? (·.asNullable? Value.asString?) none }
  | _ => none

end ContainerDefaults

namespace RootFileSystem

def empty : RootFileSystem := ⟨"", []⟩

def toJson (fileSystem : RootFileSystem) : Value :=
  .record [("type", .str fileSystem.kind), ("diff_ids", .strings fileSystem.diffIds)]

def ofJson? (value : Value) : Option RootFileSystem := do
  match ← value.fields? ["type", "diff_ids"] with
  | [kind, diffIds] =>
    return {
      kind := ← kind.withDefault? Value.asString? ""
      diffIds := ← diffIds.withDefault? Value.asStrings? [] }
  | _ => none

end RootFileSystem

namespace ImageConfig

def toJson (config : ImageConfig) : Value :=
  .record [("architecture", .str config.architecture), ("os", .str config.os),
    ("created", .nullable .str config.created), ("config", config.container.toJson),
    ("rootfs", config.rootFileSystem.toJson)]

/-- A config out of JSON; what is not given is empty. -/
def ofJson? (value : Value) : Option ImageConfig := do
  match ← value.fields? ["architecture", "os", "created", "config", "rootfs"] with
  | [architecture, os, created, container, rootFileSystem] =>
    return {
      architecture := ← architecture.withDefault? Value.asString? ""
      os := ← os.withDefault? Value.asString? ""
      created := ← created.withDefault? (·.asNullable? Value.asString?) none
      container := ← container.withDefault? ContainerDefaults.ofJson? ContainerDefaults.empty
      rootFileSystem := ← rootFileSystem.withDefault? RootFileSystem.ofJson? RootFileSystem.empty }
  | _ => none

end ImageConfig

end ImageAudit
