/-! # About the check

The name of the check and the texts that a report shows about it.
-/

namespace ImageAudit

structure Metadata where
  description : String
  /-- The level of certification that the check belongs to. -/
  level : String
  /-- Where to read how to mend a failure. -/
  knowledgeBaseUrl : Option String
  /-- Where to read what is tested and why. -/
  checkUrl : Option String
  deriving DecidableEq, Repr

/-- What a user reads when the check did not pass. -/
structure HelpText where
  message : String
  suggestion : String
  deriving DecidableEq, Repr

namespace CheckInfo

def name : String := "HasModifiedFiles"

def version : String := "0.4.0"

/-- The guide in which the policy is written down. -/
def policyGuideUrl : String :=
  "https://access.redhat.com/documentation/en-us/red_hat_software_certification/2024/html/" ++
  "red_hat_openshift_software_certification_policy_guide/" ++
  "assembly-requirements-for-container-images_openshift-sw-cert-policy-introduction"

def metadata : Metadata where
  description :=
    "Checks that no files installed via RPM in the base Red Hat layer have been modified"
  level := "best"
  knowledgeBaseUrl := some policyGuideUrl
  checkUrl := some policyGuideUrl

/-- What a user reads when the check did not pass. -/
def help : HelpText where
  message := "Check HasModifiedFiles encountered an error. " ++
    "Please review the preflight.log file for more information."
  suggestion := "Do not modify any files installed by RPM in the base Red Hat layer"

end CheckInfo

end ImageAudit
