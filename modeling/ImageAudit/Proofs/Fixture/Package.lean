import ImageAudit.Fixture.Package
import ImageAudit.Proofs.Rpm.HeaderFields

/-! # Package fixtures described step by step

However a package is described, the paths of its files begin at the root, so each is a directory
with a last component. The header has one field for each tag, those of the package before those of
its files, so what counts for a tag is read off the description.
-/

namespace ImageAudit.Fixture

open Rpm

inductive Detail where
  | vendor (vendor : Option String)
  | epoch (epoch : Int32)
  | installTime (installTime : Int32)
  | noArch
  | legacyFileNames
  | file (path : String) (mode : UInt16) (flags : FileFlags)
  | regular (path : String) (mode : UInt16) (flags : FileFlags)
  | directory (path : String)
  deriving DecidableEq

def PackageFixture.add (package : PackageFixture) : Detail → PackageFixture
  | .vendor vendor => { package with vendor := vendor }
  | .epoch epoch => { package with epoch := some epoch }
  | .installTime installTime => { package with installTime := installTime }
  | .noArch => { package with arch := none }
  | .legacyFileNames => { package with legacyFileNames := true }
  | .file path mode flags => package.addFile path mode flags
  | .regular path mode flags => package.addRegular path mode flags
  | .directory path => package.addDirectory path

/-- The directory of a path: all that stands before the last component. -/
structure IsDirectoryOf (directory path : String) : Prop where
  ends : directory.toList.getLast? = some '/'
  rest : ∃ component : String, '/' ∉ component.toList ∧ directory ++ component = path

namespace PackageFixture

/-- The packages that can be described: a new one, and one with a further detail. -/
inductive Described : PackageFixture → Prop where
  | new (name version release arch : String) : Described (.new name version release (some arch))
  | add {package : PackageFixture} (described : Described package) (detail : Detail) :
    Described (package.add detail)

/-- No text of the package has a null character. -/
structure NoNull (package : PackageFixture) : Prop where
  name : '\x00' ∉ package.name.toList
  version : '\x00' ∉ package.version.toList
  release : '\x00' ∉ package.release.toList
  arch : ∀ arch ∈ package.arch, '\x00' ∉ arch.toList
  vendor : ∀ vendor ∈ package.vendor, '\x00' ∉ vendor.toList
  files : ∀ file ∈ package.files, '\x00' ∉ file.path.toList

section Described

/-- The paths of all files begin at the root. -/
def Rooted (package : PackageFixture) : Prop :=
  ∀ file ∈ package.files, '/' ∈ file.path.toList

private theorem rooted_addFile {package : PackageFixture} (rooted : package.Rooted) (path : String)
    (mode : UInt16) (flags : FileFlags) : (package.addFile path mode flags).Rooted := by
  intro file member
  rcases List.mem_append.mp member with member | member
  · exact rooted file member
  · rw [List.mem_singleton.mp member, PackageFixture.rooted, String.toList_ofList]
    exact List.mem_cons_self ..

theorem Described.rooted {package : PackageFixture} (described : Described package) :
    package.Rooted := by
  induction described with
  | new name version release arch => exact fun file member => absurd member List.not_mem_nil
  | add described detail ih =>
    cases detail with
    | vendor | epoch | installTime | noArch | legacyFileNames => exact ih
    | file path mode flags => exact rooted_addFile ih path mode flags
    | regular path mode flags => exact rooted_addFile ih path _ flags
    | directory path => exact rooted_addFile ih path _ _

end Described

section Paths

variable {path : String} (slash : '/' ∈ path.toList)
include slash

private theorem exists_splitPath :
    ∃ directory component, path.toList = directory ++ '/' :: component ∧ '/' ∉ component ∧
      splitPath path = (String.ofList (directory ++ ['/']), String.ofList component) := by
  obtain ⟨component, directory, reversed, noSlash⟩ :=
    List.eq_append_cons_of_mem (List.mem_reverse.mpr slash)
  have noSlash' : ∀ c ∈ component, (c != '/') = true := fun c member =>
    bne_iff_ne.mpr (ne_of_mem_of_not_mem member noSlash)
  refine ⟨directory.reverse, component.reverse, ?_, by simpa using noSlash, ?_⟩
  · rw [← List.reverse_reverse path.toList, reversed]
    simp
  · rw [splitPath, reversed, List.dropWhile_append_of_pos noSlash',
      List.takeWhile_append_of_pos noSlash']
    simp

theorem splitPath_append : (splitPath path).1 ++ (splitPath path).2 = path := by
  obtain ⟨directory, component, whole, _, split⟩ := exists_splitPath slash
  rw [split, ← String.toList_inj, whole]
  simp

theorem isDirectoryOf_splitPath : IsDirectoryOf (splitPath path).1 path := by
  obtain ⟨directory, component, whole, noSlash, split⟩ := exists_splitPath slash
  refine ⟨?_, (splitPath path).2, ?_, splitPath_append slash⟩
  · rw [split]
    simp
  · rw [split, String.toList_ofList]
    exact noSlash

end Paths

section Directories

variable (package : PackageFixture)

/-- Each directory once, at its first place. -/
theorem directories_eq :
    package.directories = (package.files.map fun file => (splitPath file.path).1).eraseDups := by
  unfold directories
  induction package.files using List.reverseRecOn with
  | nil => rfl
  | append_singleton files file ih =>
    rw [List.foldl_concat, ih, List.map_append, List.eraseDups_append, List.map_singleton]
    generalize (files.map fun file => (splitPath file.path).1) = names
    generalize (splitPath file.path).1 = name
    by_cases seen : name ∈ names
    · have nothing : [name].removeAll names = [] := by simp [List.removeAll, seen]
      simp [seen, nothing]
    · have one : [name].removeAll names = [name] := by simp [List.removeAll, seen]
      simp [seen, one, List.eraseDups_cons]

end Directories

section Fields

variable (package : PackageFixture)

def recordFields : List HeaderField :=
  [.string Tag.name package.name, .string Tag.version package.version,
    .string Tag.release package.release] ++
  (package.epoch.map fun epoch => HeaderField.int32 Tag.epoch [epoch.toUInt32]).toList ++
  [.int32 Tag.installTime [package.installTime.toUInt32]] ++
  (package.vendor.map (HeaderField.string Tag.vendor)).toList ++
  (package.arch.map (HeaderField.string Tag.arch)).toList

/-- The tags of the package itself, in the order in which they are written. -/
def recordTags : List Int :=
  [Tag.name, Tag.version, Tag.release, Tag.epoch, Tag.installTime, Tag.vendor, Tag.arch]

def fileTags : List Int :=
  [Tag.oldFileNames, Tag.baseNames, Tag.directoryNames, Tag.directoryIndexes, Tag.fileModes,
    Tag.fileFlags]

theorem fields_eq : package.fields = package.recordFields ++ package.fileFields := rfl

private theorem toList_map_sublist {α : Type} (own : Int) (write : α → HeaderField)
    (same : ∀ value, (write value).tag = own) (value : Option α) :
    ((value.map write).toList.map (·.tag)).Sublist [own] := by
  cases value with
  | none => exact List.nil_sublist _
  | some value => simp [same]

private theorem map_tag_fileFields_sublist :
    (package.fileFields.map (·.tag)).Sublist fileTags := by
  unfold fileFields pathFields
  split
  · exact List.nil_sublist _
  · split
    · exact .cons_cons _ (.cons _ (.cons _ (.cons _ (.refl _))))
    · exact .cons _ (.refl _)

private theorem map_tag_recordFields_sublist :
    (package.recordFields.map (·.tag)).Sublist recordTags := by
  have epoch := toList_map_sublist Tag.epoch
    (fun epoch : Int32 => HeaderField.int32 Tag.epoch [epoch.toUInt32]) (fun _ => rfl)
    package.epoch
  have vendor := toList_map_sublist Tag.vendor (HeaderField.string Tag.vendor)
    (fun _ => rfl) package.vendor
  have arch := toList_map_sublist Tag.arch (HeaderField.string Tag.arch)
    (fun _ => rfl) package.arch
  unfold recordFields
  simp only [List.map_append]
  exact ((((List.Sublist.refl [Tag.name, Tag.version, Tag.release]).append epoch).append
    (.refl [Tag.installTime])).append vendor).append arch

theorem map_tag_fields_sublist :
    (package.fields.map (·.tag)).Sublist (recordTags ++ fileTags) := by
  rw [fields_eq, List.map_append]
  exact package.map_tag_recordFields_sublist.append package.map_tag_fileFields_sublist

theorem hasValues_fields : ∀ field ∈ package.fields, field.hasValues = true := by
  intro field member
  cases field with
  | string | strings | int16 | int32 => rfl
  | raw entry =>
    unfold fields fileFields pathFields at member
    split at member
    · simp at member
    · split at member <;> simp at member

private theorem last?_eq_none_of_sublist {fields : List HeaderField} {tags : List Int}
    (within : (fields.map (·.tag)).Sublist tags) {tag : Int} (outside : tag ∉ tags) :
    HeaderField.last? fields tag = none := by
  refine HeaderField.last?_eq_none ?_
  rintro field member rfl
  exact outside (within.subset (List.mem_map_of_mem member))

private theorem last?_string (tag : Int) {own : Int} (value : Option String) :
    HeaderField.last? (value.map (HeaderField.string own)).toList tag =
      if own = tag then value.map (.string own) else none :=
  HeaderField.last?_toList (HeaderField.string own) (fun _ => rfl) value tag

private theorem last?_epoch (tag : Int) (epoch : Option Int32) :
    HeaderField.last? (epoch.map fun epoch =>
      HeaderField.int32 Tag.epoch [epoch.toUInt32]).toList tag =
      if Tag.epoch = tag then epoch.map fun epoch => .int32 Tag.epoch [epoch.toUInt32]
      else none :=
  HeaderField.last?_toList
    (fun epoch : Int32 => HeaderField.int32 Tag.epoch [epoch.toUInt32]) (fun _ => rfl)
    epoch tag

/-- What counts for a tag of the package itself. -/
theorem last?_fields_record {tag : Int} (own : tag ∈ recordTags) :
    HeaderField.last? package.fields tag =
      if tag = Tag.name then some (.string tag package.name)
      else if tag = Tag.version then some (.string tag package.version)
      else if tag = Tag.release then some (.string tag package.release)
      else if tag = Tag.epoch then
        (package.epoch.map fun epoch => [epoch.toUInt32]).map (.int32 tag)
      else if tag = Tag.installTime then some (.int32 tag [package.installTime.toUInt32])
      else if tag = Tag.vendor then package.vendor.map (.string tag)
      else package.arch.map (.string tag) := by
  have apart : ∀ tag ∈ recordTags, tag ∉ fileTags := by decide
  have noFile := last?_eq_none_of_sublist package.map_tag_fileFields_sublist (apart tag own)
  rw [fields_eq, HeaderField.last?_append, noFile, Option.none_or]
  simp only [recordFields, HeaderField.last?_append, last?_string, last?_epoch,
    HeaderField.last?_cons, HeaderField.last?_nil, HeaderField.tag]
  simp only [recordTags, List.mem_cons, List.not_mem_nil, or_false] at own
  rcases own with rfl | rfl | rfl | rfl | rfl | rfl | rfl
  all_goals
    simp [Tag.name, Tag.version, Tag.release, Tag.epoch, Tag.installTime, Tag.vendor, Tag.arch,
      Function.comp_def]

/-- What counts for a tag of the file list. -/
theorem last?_fields_file {tag : Int} (own : tag ∈ fileTags) :
    HeaderField.last? package.fields tag = HeaderField.last? package.fileFields tag := by
  have apart : ∀ tag ∈ fileTags, tag ∉ recordTags := by decide
  have noRecord := last?_eq_none_of_sublist package.map_tag_recordFields_sublist (apart tag own)
  rw [fields_eq, HeaderField.last?_append, noRecord, Option.or_none]

theorem last?_file_of_no_files {package : PackageFixture} (files : package.files = []) {tag : Int}
    (own : tag ∈ fileTags) : HeaderField.last? package.fields tag = none := by
  rw [package.last?_fields_file own, fileFields, if_pos files, HeaderField.last?_nil]

/-- A value for each file; none without files. -/
def eachFile? {α : Type} (value : FixtureFile → α) : Option (List α) :=
  if package.files = [] then none else some (package.files.map value)

theorem getD_eachFile? {α β : Type} (value : FixtureFile → α) (read : α → β) :
    ((package.eachFile? value).map (List.map read)).getD [] =
      package.files.map fun file => read (value file) := by
  unfold eachFile?
  split
  · simp [*]
  · simp [Function.comp_def]

theorem last?_fileModes :
    HeaderField.last? package.fields Tag.fileModes =
      (package.eachFile? (·.mode)).map (.int16 Tag.fileModes) := by
  rw [package.last?_fields_file (by decide)]
  unfold fileFields pathFields eachFile?
  split
  · rfl
  · split <;> rfl

theorem last?_fileFlags :
    HeaderField.last? package.fields Tag.fileFlags =
      (package.eachFile? (·.flags.bits)).map (.int32 Tag.fileFlags) := by
  rw [package.last?_fields_file (by decide)]
  unfold fileFields pathFields eachFile?
  split
  · rfl
  · split <;> rfl

section Paths

variable {package : PackageFixture} (files : package.files ≠ [])
include files

theorem last?_baseNames_of_whole (whole : package.legacyFileNames = true) :
    HeaderField.last? package.fields Tag.baseNames = none := by
  rw [package.last?_fields_file (by decide), fileFields, if_neg files, pathFields, if_pos whole]
  rfl

theorem last?_oldFileNames (whole : package.legacyFileNames = true) :
    HeaderField.last? package.fields Tag.oldFileNames =
      some (.strings Tag.oldFileNames (package.files.map (·.path))) := by
  rw [package.last?_fields_file (by decide), fileFields, if_neg files, pathFields, if_pos whole]
  rfl

variable (split : ¬ package.legacyFileNames = true)
include split

theorem last?_baseNames :
    HeaderField.last? package.fields Tag.baseNames =
      some (.strings Tag.baseNames (package.files.map fun file => (splitPath file.path).2)) := by
  rw [package.last?_fields_file (by decide), fileFields, if_neg files, pathFields, if_neg split]
  rfl

theorem last?_directoryNames :
    HeaderField.last? package.fields Tag.directoryNames =
      some (.strings Tag.directoryNames package.directories) := by
  rw [package.last?_fields_file (by decide), fileFields, if_neg files, pathFields, if_neg split]
  rfl

theorem last?_directoryIndexes :
    HeaderField.last? package.fields Tag.directoryIndexes =
      some (.int32 Tag.directoryIndexes (package.files.map fun file =>
        UInt32.ofNat (package.directories.idxOf (splitPath file.path).1))) := by
  rw [package.last?_fields_file (by decide), fileFields, if_neg files, pathFields, if_neg split]
  rfl

end Paths

end Fields

end PackageFixture

end ImageAudit.Fixture
