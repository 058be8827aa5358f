/-! # Tags

The numbers under which a package header keeps what is used here.
-/

namespace ImageAudit.Rpm.Tag

/-- Wraps the other entries of a header. -/
def immutableRegion : Int := 63
def name : Int := 1000
def version : Int := 1001
def release : Int := 1002
def epoch : Int := 1003
def installTime : Int := 1008
def vendor : Int := 1011
def arch : Int := 1022
/-- Whole paths. -/
def oldFileNames : Int := 1027
def fileModes : Int := 1030
def fileFlags : Int := 1037
/-- For each file the position of its directory. -/
def directoryIndexes : Int := 1116
/-- For each file its last component. -/
def baseNames : Int := 1117
/-- The directories, each with a trailing slash. -/
def directoryNames : Int := 1118

end ImageAudit.Rpm.Tag
