import ImageAudit.Proofs.Rpm.HashFile.MetaPage
import ImageAudit.Proofs.Rpm.HashFile.Trail

/-! # Pages of a parsed hash file

A file is parsed only when it holds every page that it declares. So each page up to the last lies
inside the file and is as large as the first page says.
-/

namespace ImageAudit.Rpm.HashFile

open Bytes (slice)

/-- The data holds the declared pages of the file. -/
structure StoredIn (file : HashFile) (data : Bytes) : Prop where
  order : orderOf? data = some file.order
  pageSize : isPageSize file.pageSize = true
  lastPage : file.lastPage = (slice data 32 4).natIn file.order
  whole : (file.lastPage + 1) * file.pageSize ≤ data.length
  pages : file.pages = (Bytes.chunks file.pageSize data).map List.toArray

variable {file : HashFile} {data : Bytes}

theorem storedIn_of_parse (parsed : parse data = .ok file) : file.StoredIn data := by
  unfold parse at parsed
  dsimp only at parsed
  split at parsed
  · cases parsed
  split at parsed
  · cases parsed
  case h_2 order found =>
    iterate 4
      split at parsed
      · cases parsed
    case isFalse sized whole =>
      obtain rfl := Except.ok.inj parsed
      have pageSize : isPageSize ((slice data 20 4).natIn order) = true := by simpa using sized
      exact ⟨found, pageSize, rfl, Nat.not_lt.mp whole, rfl⟩

namespace StoredIn

variable (stored : file.StoredIn data)
include stored

theorem minPageSize_le : 512 ≤ file.pageSize := (le_of_isPageSize stored.pageSize).1

theorem pageSize_le : file.pageSize ≤ 65536 := (le_of_isPageSize stored.pageSize).2

section Page

variable {number : Nat} (inside : number ≤ file.lastPage)
include inside

/-- A page up to the last one lies inside the file. -/
theorem page_inside : number * file.pageSize + file.pageSize ≤ data.length := by
  rw [← Nat.succ_mul]
  exact Nat.le_trans (Nat.mul_le_mul_right _ (Nat.succ_le_succ inside)) stored.whole

/-- A page is what the file holds at its place. -/
theorem pageAt : file.pageAt number =
    (slice data (number * file.pageSize) file.pageSize).toArray := by
  have smallest := stored.minPageSize_le
  have positive : 0 < file.pageSize := by omega
  have within : number * file.pageSize < data.length := by
    have := stored.page_inside inside
    omega
  rw [HashFile.pageAt, stored.pages, Array.getD_eq_getD_getElem?, Array.getElem?_map,
    Bytes.getElem?_chunks positive within, Option.map_some, Option.getD_some]

theorem size_pageAt : (file.pageAt number).size = file.pageSize := by
  have within := stored.page_inside inside
  rw [stored.pageAt inside, List.size_toArray, slice, List.length_take, List.length_drop]
  omega

end Page

/-- Every page that can be read has the size of a page. -/
theorem size_of_page {number : Nat} {page : Page} (found : file.page number = .ok page) :
    page.size = file.pageSize := by
  by_cases inside : number ≤ file.lastPage
  · rw [page_of_le inside] at found
    rw [← Except.ok.inj found, stored.size_pageAt inside]
  · rw [HashFile.page, if_pos (Nat.not_le.mp inside)] at found
    cases found

end StoredIn

end ImageAudit.Rpm.HashFile
