import ImageAudit.Fixture.Layer
import ImageAudit.Proofs.Layer.Members
import ImageAudit.Proofs.Tar.Written
import Mathlib.Data.List.TakeWhile

/-! # What a scan finds in a written layer

Every entry of a layer fixture comes to one member of its archive, with its path up to the normal
form, its permissions and its content. So a scan of the archive finds changed just the paths of its
files and links that are no markers, each as the last entry for it has it.
-/

namespace ImageAudit.Fixture

open Layer Tar
open Tar.Writer (HeaderFields fieldSize padded placePath placeLink placeLink_spec)

namespace LayerEntry

def path : LayerEntry → String
  | file path _ _ | directory path _ | symbolicLink path _ | hardLink path _ => path

def kind : LayerEntry → EntryKind
  | file .. => .regular
  | directory .. => .directory
  | symbolicLink .. => .symbolicLink
  | hardLink .. => .hardLink

/-- Permission, set-id and sticky bits; a link allows everything. -/
def permissions : LayerEntry → UInt32
  | file _ mode _ | directory _ mode => FileMode.permissions mode
  | symbolicLink .. | hardLink .. => 0o777

def content : LayerEntry → Bytes
  | file _ _ content => content
  | directory .. | symbolicLink .. | hardLink .. => []

/-- What the entry means for its layer. -/
def meaning (entry : LayerEntry) : Member :=
  if entry.kind = .directory then .ignored else Member.ofPath (Path.normalize entry.path)

/-- The member that the entry comes to. -/
structure IsRead (entry : LayerEntry) (member : Listed) : Prop where
  kind : member.entry.kind = entry.kind
  path : Path.normalize (Utf8.lossy member.entry.path) = Path.normalize entry.path
  permissions : FileMode.permissions (member.entry.header.mode?.getD 0) = entry.permissions
  data : member.data = entry.content

/-- The header that the entry is written with, and what stands between its long path, if it has
one, and that header. -/
structure WrittenWith (entry : LayerEntry) (fields : HeaderFields) (front : Bytes) : Prop where
  archived : entry.archived = (placePath (Bytes.ofText entry.path)).2 ++
    (front ++ (fields.block ++ padded entry.content))
  name : fields.name = (placePath (Bytes.ofText entry.path)).1
  link : fields.link.length ≤ fieldSize
  size : fields.size = entry.content.length
  front : InFront 0x4B front
  kind : EntryKind.ofByte fields.kind = entry.kind
  permissions : FileMode.permissions fields.mode = entry.permissions

theorem writtenWith_data {entry : LayerEntry} {byte : UInt8} {mode : UInt32}
    (archived : entry.archived = Tar.Writer.withData byte entry.path mode entry.content)
    (kind : EntryKind.ofByte byte = entry.kind)
    (permissions : FileMode.permissions mode = entry.permissions) :
    ∃ fields front, entry.WrittenWith fields front :=
  ⟨⟨(placePath (Bytes.ofText entry.path)).1, mode, entry.content.length, byte, []⟩, [],
    archived.trans (List.append_assoc ..), rfl, Nat.zero_le _, rfl, .inl rfl, kind, permissions⟩

theorem writtenWith_target {entry : LayerEntry} {byte : UInt8} {target : String}
    (archived : entry.archived = Tar.Writer.withTarget byte entry.path target)
    (empty : entry.content = []) (kind : EntryKind.ofByte byte = entry.kind)
    (permissions : FileMode.permissions 0o777 = entry.permissions) :
    ∃ fields front, entry.WrittenWith fields front := by
  obtain ⟨full, front⟩ := placeLink_spec (Bytes.ofText target)
  refine ⟨⟨(placePath (Bytes.ofText entry.path)).1, 0o777, 0, byte,
    (placeLink (Bytes.ofText target)).1⟩, (placeLink (Bytes.ofText target)).2, ?_, rfl,
    Nat.le_of_eq full, ?_, front.imp_right fun long => ⟨_, long⟩, kind, permissions⟩
  · rw [archived, empty, ← List.append_assoc]
    exact (congrArg _ (List.append_nil _)).symm
  · rw [empty]
    rfl

theorem exists_writtenWith (entry : LayerEntry) :
    ∃ fields front, entry.WrittenWith fields front := by
  cases entry with
  | file path mode content | directory path mode => exact writtenWith_data rfl rfl rfl
  | symbolicLink path target | hardLink path target => exact writtenWith_target rfl rfl rfl rfl

/-- The digits that are kept of a mode have its permissions. -/
theorem permissions_mod (mode : UInt32) :
    FileMode.permissions (UInt32.ofNat (mode.toNat % 8 ^ 7)) = FileMode.permissions mode := by
  have low (value : Nat) : value &&& 0o7777 = value % 2 ^ 12 :=
    Nat.and_two_pow_sub_one_eq_mod value 12
  rw [FileMode.permissions, FileMode.permissions, ← UInt32.toNat_inj, UInt32.toNat_and,
    UInt32.toNat_and, UInt32.toNat_ofNat']
  change _ &&& 0o7777 = _ &&& 0o7777
  rw [low, low]
  omega

section Written

variable {stream : ByteStream} {reader : Reader} {ahead : Bytes}
variable (short : stream.content.length < 2 ^ 63)
include short

theorem next?_archived (entry : LayerEntry)
    (before : reader.Before stream (entry.archived ++ ahead)) :
    ∃ read opened, next? reader = (.ok (some read), opened) ∧ opened.Before stream ahead ∧
      entry.IsRead ⟨read, opened.rest.take read.size⟩ ∧ read.header.mode?.isSome := by
  obtain ⟨fields, front, written⟩ := entry.exists_writtenWith
  have plain : (EntryKind.ofByte fields.kind).isExtension = false := by
    rw [written.kind]
    cases entry <;> rfl
  have whole : EntryKind.ofByte fields.kind ≠ .sparse := by
    rw [written.kind]
    cases entry <;> exact nofun
  rw [written.archived] at before
  simp only [List.append_assoc] at before
  obtain ⟨fits, read, opened, ran, after, data, header, path⟩ :=
    before.next? short written.name written.link written.size plain whole written.front
  refine ⟨read, opened, ran, after, ⟨?_, ?_, ?_, data⟩, ?_⟩
  · rw [Entry.kind, header, fits.kind_block, written.kind]
  · rw [path, Utf8.lossy_ofText]
  · rw [header, fits.mode?_block, Option.getD_some, permissions_mod, written.permissions]
  · rw [header, fits.mode?_block, Option.isSome_some]

/-- An archive has a member for each entry, with a mode that can be read. -/
theorem exists_lists {entries : List LayerEntry}
    (before : reader.Before stream (entries.flatMap archived ++ Tar.Writer.ending)) :
    ∃ members, reader.Lists members ∧ List.Forall₂ IsRead entries members ∧
      ∀ member ∈ members, member.entry.header.mode?.isSome := by
  induction entries generalizing reader with
  | nil =>
    obtain ⟨final, ended⟩ := before.ended
    exact ⟨[], .ended ended, .nil, nofun⟩
  | cons entry entries ih =>
    rw [List.flatMap_cons, List.append_assoc] at before
    obtain ⟨first, opened, ran, after, isRead, moded⟩ := next?_archived short entry before
    obtain ⟨members, rest, areRead, areModed⟩ := ih after
    exact ⟨_, .entry ran rest, .cons isRead areRead, List.forall_mem_cons.mpr ⟨moded, areModed⟩⟩

/-- The members of an archive are those that the entries come to. -/
theorem forall₂_lists {entries : List LayerEntry} {members : List Listed}
    (before : reader.Before stream (entries.flatMap archived ++ Tar.Writer.ending))
    (lists : reader.Lists members) : List.Forall₂ IsRead entries members := by
  obtain ⟨others, lists', areRead, -⟩ := exists_lists short before
  rw [lists.unique lists']
  exact areRead

end Written

/-- The entry puts a file at the normalized path: it is no directory, and the path is neither the
top of the layer nor that of a marker. -/
def Changes (path : String) (entry : LayerEntry) : Prop :=
  entry.kind ≠ .directory ∧ Path.normalize entry.path = path ∧ path ≠ "." ∧
    Text.startsWith (Path.parentAndName path).2 ".wh." = false

instance (path : String) (entry : LayerEntry) : Decidable (Changes path entry) :=
  inferInstanceAs (Decidable (_ ∧ _))

/-- The path does not begin at the root. -/
def IsRelative (entry : LayerEntry) : Prop := Text.startsWith entry.path "/" = false

theorem IsRead.meaning {entry : LayerEntry} {member : Listed} (isRead : entry.IsRead member) :
    member.meaning = entry.meaning := by
  have noExtension : entry.kind.isExtension = false := by cases entry <;> rfl
  rw [Listed.meaning, Member.ofEntry, isRead.kind, isRead.path, noExtension, LayerEntry.meaning]
  by_cases isDirectory : entry.kind = .directory <;> simp [isDirectory]

theorem IsRead.isFileAt_iff {entry : LayerEntry} {member : Listed} (isRead : entry.IsRead member)
    (relative : entry.IsRelative) (path : String) :
    IsFileAt path member.entry ↔ Changes path entry := by
  have notRoot : Path.normalize entry.path ≠ "/" := by
    refine Path.normalize_ne_root ?_
    intro root
    rw [IsRelative, root] at relative
    exact absurd relative (by decide +kernel)
  change member.meaning = .file path ↔ _
  rw [isRead.meaning, LayerEntry.meaning, Changes]
  split <;> rename_i isDirectory
  · exact ⟨nofun, fun changes => absurd isDirectory changes.1⟩
  · rw [Member.ofPath_eq_file_iff]
    constructor
    · rintro ⟨rfl, notTop, -, notMarker⟩
      exact ⟨isDirectory, rfl, notTop, notMarker⟩
    · rintro ⟨-, rfl, notTop, notMarker⟩
      exact ⟨rfl, notTop, notRoot, notMarker⟩

section Markers

variable {name : List Char} (noSlash : '/' ∉ name)
include noSlash

/-- A path whose last component is a marker is that of no changed file. -/
theorem not_changes_of_marker {entry : LayerEntry}
    (ends : entry.path.toList = ".wh.".toList ++ name ∨
      ∃ directory, entry.path.toList = directory ++ '/' :: (".wh.".toList ++ name))
    (path : String) : ¬ Changes path entry := by
  have proper : Path.IsName (".wh.".toList ++ name) := by
    refine ⟨?_, ?_, ?_, ?_⟩
    · rw [List.mem_append]
      exact not_or.mpr ⟨by decide +kernel, noSlash⟩
    all_goals
      rw [show ".wh.".toList = ['.', 'w', 'h', '.'] by decide +kernel]
      exact nofun
  obtain ⟨segments, normal⟩ := proper.exists_normalize ends
  rintro ⟨-, rfl, -, notMarker⟩
  rw [normal, Path.parentAndName_join segments proper.noSlash, Text.startsWith,
    ← Bool.not_eq_true, List.isPrefixOf_iff_prefix] at notMarker
  refine notMarker ?_
  change _ <+: (String.ofList (".wh.".toList ++ name)).toList
  have whole : (String.ofList (".wh.".toList ++ name)).toList = ".wh.".toList ++ name :=
    String.toList_ofList
  rw [whole]
  exact List.prefix_append ..

end Markers

/-- Behind the last slash there is none. -/
theorem slash_not_mem_of_splitLast? {text parent name : String}
    (split : Text.splitLast? '/' text = some (parent, name)) : '/' ∉ name.toList := by
  unfold Text.splitLast? at split
  split at split
  · cases split
  · cases split
    rw [String.toList_ofList, List.mem_reverse]
    intro slash
    have passed := List.mem_takeWhile_imp slash
    cases passed

theorem slash_not_mem_of_splitLast?_eq_none {text : String}
    (whole : Text.splitLast? '/' text = none) : '/' ∉ text.toList := by
  unfold Text.splitLast? at whole
  split at whole
  · rename_i none
    intro slash
    have passed := List.dropWhile_eq_nil_iff.mp none '/' (List.mem_reverse.mpr slash)
    cases passed
  · cases whole

theorem not_changes_whiteout (hidden path : String) : ¬ Changes path (whiteout hidden) := by
  unfold whiteout
  cases split : Text.splitLast? '/' hidden with
  | none =>
    refine not_changes_of_marker (slash_not_mem_of_splitLast?_eq_none split) (.inl ?_) path
    exact String.toList_append
  | some parts =>
    refine
      not_changes_of_marker (slash_not_mem_of_splitLast? split) (.inr ⟨parts.1.toList, ?_⟩) path
    change (parts.1 ++ "/.wh." ++ parts.2).toList = _
    rw [String.toList_append, String.toList_append, List.append_assoc]
    rfl

theorem not_changes_opaqueDirectory (directory path : String) :
    ¬ Changes path (opaqueDirectory directory) := by
  have noSlash : '/' ∉ ".wh..opq".toList := by decide +kernel
  refine not_changes_of_marker noSlash (.inr ⟨(Text.dropTrailing '/' directory).toList, ?_⟩) path
  exact String.toList_append

end LayerEntry

open LayerEntry in
/-- A scan of a written layer finds changed just the paths that its entries change, each with the
permissions of the last such entry. The entries that delete or hide what lower layers hold change
none. -/
theorem changed_of_scan_archive {entries : List LayerEntry} {site : ScanSite}
    {staged left : FileTree} {contents : LayerContents}
    (relative : ∀ entry ∈ entries, entry.IsRelative)
    (short : (archive entries).length < 2 ^ 63)
    (scanned : scan site (.ofBytes (archive entries)) staged = (.ok contents, left))
    (path : String) :
    contents.changed[path]? = (entries.reverse.find? (Changes path)).map
        (fun entry => ⟨path, entry.permissions⟩) ∧
      ∀ hidden, ¬ Changes path (whiteout hidden) ∧ ¬ Changes path (opaqueDirectory hidden) := by
  refine ⟨?_, fun hidden =>
    ⟨not_changes_whiteout hidden path, not_changes_opaqueDirectory hidden path⟩⟩
  obtain ⟨members, lists, changed, -⟩ := exists_members scanned
  have fresh := Reader.reads_new (.ofBytes (archive entries))
  have pairs := forall₂_lists short ⟨fresh, Nat.le_refl _, Nat.zero_le _, rfl⟩ lists
  have pairs := List.rel_reverse ((List.forall₂_and_left entries members).mpr ⟨relative, pairs⟩)
  have found : Option.Rel _ (entries.reverse.find? (Changes path))
      (members.reverse.find? fun member => IsFileAt path member.entry) :=
    Fallible.rel_find? pairs fun entry member paired =>
      decide_eq_decide.mpr (paired.2.isFileAt_iff paired.1 path).symm
  rw [changed, getElem?_foldl_changedAfter, ← List.map_reverse, List.find?_map]
  change Option.Rel _ _ (members.reverse.find? ((fun entry => IsFileAt path entry) ∘ Listed.entry))
    at found
  generalize entries.reverse.find? _ = last at found ⊢
  generalize members.reverse.find? _ = last' at found ⊢
  cases found with
  | none => rfl
  | @some entry member paired =>
    change some (fileRecord path member.entry) = some ⟨path, entry.permissions⟩
    rw [fileRecord, paired.2.permissions]

/-- A layer with entries of every kind, two of them for one path. -/
def sampleEntries : List LayerEntry :=
  [.directory "bin" 0o755, .file "./bin//tool" 0o644 [0x23], .symbolicLink "bin/link" "tool",
    .whiteout "bin/old", .opaqueDirectory "etc", .file "bin/tool" 0o104755 []]

def sampleSite : ScanSite := ⟨"layer", "/staging", .never⟩

theorem changed_of_scan_archive_sample :
    (∀ entry ∈ sampleEntries, entry.IsRelative) ∧ (archive sampleEntries).length < 2 ^ 63 ∧
      ∃ contents left,
        scan sampleSite (.ofBytes (archive sampleEntries)) .empty = (.ok contents, left) ∧
        contents.changed["bin/tool"]? = some ⟨"bin/tool", 0o4755⟩ ∧
        contents.changed["bin/link"]? = some ⟨"bin/link", 0o777⟩ ∧
        contents.changed["bin/old"]? = none := by
  have relative : ∀ entry ∈ sampleEntries, entry.IsRelative := by
    unfold LayerEntry.IsRelative
    decide +kernel
  have short : (archive sampleEntries).length < 2 ^ 63 := by decide +kernel
  have succeeds :
      (scan sampleSite (.ofBytes (archive sampleEntries)) .empty).1.isOk = true := by
    decide +kernel
  refine ⟨relative, short, ?_⟩
  cases outcome : scan sampleSite (.ofBytes (archive sampleEntries)) .empty with
  | mk result left =>
    rw [outcome] at succeeds
    cases result with
    | error failure => cases succeeds
    | ok contents =>
      have found (path : String) := (changed_of_scan_archive relative short outcome path).1
      refine ⟨contents, left, rfl, ?_, ?_, ?_⟩
      · rw [found]
        decide +kernel
      · rw [found]
        decide +kernel
      · rw [found]
        decide +kernel

end ImageAudit.Fixture
