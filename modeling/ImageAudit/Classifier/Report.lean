import ImageAudit.Package

/-! # What is reported about an image

Each modification of an owned file is one finding with a verdict and its reason. An image passes
when no finding is disallowed.
-/

namespace ImageAudit

/-- Why a modification is accepted. -/
inductive AllowReason where
  /-- Same package; a set-id bit was dropped. -/
  | setIdBitsRemoved
  /-- Same package, installed again later. -/
  | reinstalled
  /-- The file now belongs to another version of its package. -/
  | upgraded
  deriving DecidableEq, Repr

/-- Why a modification is reported and still accepted. -/
inductive WarnReason where
  /-- The package was not built for the image's platform. -/
  | releaseLacksDistTag
  /-- The package is from another vendor than the trusted one. -/
  | untrustedVendor
  deriving DecidableEq, Repr

/-- Why a modification fails the image. -/
inductive DisallowReason where
  /-- The file was changed without the package manager. -/
  | modifiedOutsidePackageManager
  /-- The new package is not built for the platform and the old one was. -/
  | distTagRegression
  | architectureChanged
  deriving DecidableEq, Repr

/-- The judgement on one modification. -/
inductive Verdict where
  | allowed (reason : AllowReason)
  | warned (reason : WarnReason)
  | disallowed (reason : DisallowReason)
  deriving DecidableEq, Repr

namespace AllowReason

/-- The reason in words run together. -/
def label : AllowReason → String
  | setIdBitsRemoved => "SetIdBitsRemoved"
  | reinstalled => "Reinstalled"
  | upgraded => "Upgraded"

def field : AllowReason → String
  | setIdBitsRemoved => "set_id_bits_removed"
  | reinstalled => "reinstalled"
  | upgraded => "upgraded"

end AllowReason

namespace WarnReason

/-- The reason in words run together. -/
def label : WarnReason → String
  | releaseLacksDistTag => "ReleaseLacksDistTag"
  | untrustedVendor => "UntrustedVendor"

def field : WarnReason → String
  | releaseLacksDistTag => "release_lacks_dist_tag"
  | untrustedVendor => "untrusted_vendor"

end WarnReason

namespace DisallowReason

/-- The reason in words run together. -/
def label : DisallowReason → String
  | modifiedOutsidePackageManager => "ModifiedOutsidePackageManager"
  | distTagRegression => "DistTagRegression"
  | architectureChanged => "ArchitectureChanged"

def field : DisallowReason → String
  | modifiedOutsidePackageManager => "modified_outside_package_manager"
  | distTagRegression => "dist_tag_regression"
  | architectureChanged => "architecture_changed"

end DisallowReason

namespace Verdict

/-- Whether the modification fails the image. -/
def isDisallowed : Verdict → Bool
  | disallowed _ => true
  | _ => false

/-- Whether the modification is reported and accepted. -/
def isWarned : Verdict → Bool
  | warned _ => true
  | _ => false

def field : Verdict → String
  | allowed _ => "allowed"
  | warned _ => "warned"
  | disallowed _ => "disallowed"

def reasonField : Verdict → String
  | allowed reason => reason.field
  | warned reason => reason.field
  | disallowed reason => reason.field

/-- The judgement and its reason for the reader. -/
def label : Verdict → String
  | allowed reason => "allowed (" ++ reason.label ++ ")"
  | warned reason => "warned (" ++ reason.label ++ ")"
  | disallowed reason => "disallowed (" ++ reason.label ++ ")"

end Verdict

/-- One modification of an owned file. -/
structure Finding where
  layerIndex : Nat
  layerId : String
  path : String
  /-- The owner in this layer. -/
  package : PackageKey
  /-- The owner in the layer below. -/
  previous : PackageKey
  verdict : Verdict
  deriving DecidableEq, Repr

/-- The modifications of an image, by layer and then by path. -/
structure Report where
  /-- The platform against which releases were compared. -/
  distTag : String
  layers : Nat
  findings : List Finding
  deriving DecidableEq, Repr

namespace Report

/-- The findings that fail the image. -/
def disallowed (report : Report) : List Finding := report.findings.filter (·.verdict.isDisallowed)

/-- The findings that are reported and accepted. -/
def warnings (report : Report) : List Finding := report.findings.filter (·.verdict.isWarned)

def passed (report : Report) : Bool := !report.findings.any (·.verdict.isDisallowed)

end Report

end ImageAudit
