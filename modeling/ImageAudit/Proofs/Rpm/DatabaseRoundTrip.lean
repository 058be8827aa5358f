import ImageAudit.Fixture.Package
import ImageAudit.Proofs.Rpm.HashFile.RoundTrip
import ImageAudit.Rpm.Database
import Mathlib

/-! # Packages of a written hash file

Whatever headers are written to a hash file, the same headers are read back, empty ones included. So
reading the database yields the package of each header in order, or fails at the first header that
describes none, and the failure names its position and its fault.
-/

namespace ImageAudit.Rpm

open Fallible

/-- Headers that all describe packages yield these packages. -/
theorem parsePackages_eq_ok {headers : List Bytes} {packages : List InstalledPackage}
    (sound : List.Forall₂ (fun header package => parsePackage header = .ok package)
      headers packages) : parsePackages headers = .ok packages := by
  rw [parsePackages, mapM_eq_ok_iff, List.forall₂_iff_get]
  refine ⟨by rw [List.length_zipIdx, sound.length_eq], ?_⟩
  intro position inside inside'
  rw [List.length_zipIdx] at inside
  have parsed := sound.get inside inside'
  rw [List.get_eq_getElem] at parsed
  simp only [List.get_eq_getElem, List.getElem_zipIdx, mapError_eq_ok_iff]
  exact parsed

/-- The first header that describes no package is reported with its position. -/
theorem parsePackages_eq_error {before after : List Bytes} {header : Bytes} {fault : HeaderFault}
    (sound : ∀ earlier ∈ before, ∃ package, parsePackage earlier = .ok package)
    (broken : parsePackage header = .error fault) :
    parsePackages (before ++ header :: after) =
      .error s!"package #{before.length}: {fault.message}" := by
  rw [parsePackages, List.zipIdx_append, List.zipIdx_cons, Nat.zero_add]
  refine mapM_eq_error ?_ ?_
  · rintro ⟨earlier, position⟩ member
    obtain ⟨package, parsed⟩ := sound earlier (List.fst_mem_of_mem_zipIdx member)
    exact ⟨package, mapError_eq_ok_iff.mpr parsed⟩
  · simp only [broken]
    rfl

namespace HashFile.Writer

/-- The headers that are written are those that are read, and the packages are theirs; a header
that describes none is reported with its position. -/
theorem readPackages_encode (writer : Writer) (headers : List Bytes)
    (holds : writer.CanHold headers) :
    readValues (writer.encode headers) = .ok headers ∧
    (∀ path log packages,
      List.Forall₂ (fun header package => parsePackage header = .ok package) headers packages →
      readPackages path .berkeleyDb ⟨writer.encode headers, log⟩ = .ok packages) ∧
    ∀ path log before header after fault,
      headers = before ++ header :: after →
      (∀ earlier ∈ before, ∃ package, parsePackage earlier = .ok package) →
      parsePackage header = .error fault →
      readPackages path .berkeleyDb ⟨writer.encode headers, log⟩ =
        .error (.database path s!"package #{before.length}: {fault.message}") := by
  have read (path : String) (log : Bytes) :
      readHeadersAt path .berkeleyDb ⟨writer.encode headers, log⟩ = .ok headers := by
    rw [readHeadersAt, readHeaders, holds.readValues_encode]
    rfl
  refine ⟨holds.readValues_encode, ?_, ?_⟩
  · intro path log packages sound
    rw [readPackages, read, ok_bind, parsePackages_eq_ok sound]
    rfl
  · intro path log before header after fault split sound broken
    rw [readPackages, read, ok_bind, split, parsePackages_eq_error sound broken]
    rfl

section Sample

/-- The header of a package, and an empty one, which describes none. -/
def sampleHeaders : List Bytes := [(Fixture.PackageFixture.new "p" "1" "2" none).header, []]

/-- Small pages, most significant byte first. -/
def sampleWriter : Writer := ⟨.big, 512⟩

/-- The empty header takes a page of its own, and is reported as the second. -/
theorem readPackages_encode_sample :
    sampleWriter.CanHold sampleHeaders ∧
      readValues (sampleWriter.encode sampleHeaders) = .ok sampleHeaders ∧
      readPackages "Packages" .berkeleyDb ⟨sampleWriter.encode sampleHeaders, []⟩ =
        .error (.database "Packages" "package #1: header truncated: 0 bytes, need at least 8") := by
  have holds : sampleWriter.CanHold sampleHeaders :=
    ⟨⟨9, by decide, by decide, rfl⟩, by decide, by decide +kernel, by decide +kernel⟩
  obtain ⟨same, -, first⟩ := readPackages_encode sampleWriter sampleHeaders holds
  have parsed : ∃ package, parsePackage (Fixture.PackageFixture.new "p" "1" "2" none).header =
      .ok package := ⟨_, by cbv⟩
  refine ⟨holds, same, first _ _ [_] [] [] (.truncated (.noCounts 0)) rfl ?_ rfl⟩
  intro earlier member
  rw [List.mem_singleton.mp member]
  exact parsed

end Sample

end HashFile.Writer

end ImageAudit.Rpm
