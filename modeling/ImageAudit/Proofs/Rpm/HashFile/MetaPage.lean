import ImageAudit.Proofs.Rpm.HashFile.WrittenPage

/-! # The first page of a hash file

The first page keeps the mark in the byte order of the file, the page size and the number of the
last page. Pages of that size behind it are told apart again, so the file is parsed to them.
-/

namespace ImageAudit.Rpm.HashFile

open Bytes (slice)

/-- A power of two from the smallest to the largest page. -/
theorem isPageSize_two_pow {exponent : Nat} (low : 9 ≤ exponent) (high : exponent ≤ 16) :
    isPageSize (2 ^ exponent) = true := by
  have powers : ∀ exponent < 17, 9 ≤ exponent → isPageSize (2 ^ exponent) = true := by decide
  exact powers exponent (Nat.lt_succ_of_le high) low

theorem le_of_isPageSize {size : Nat} (sized : isPageSize size = true) :
    minPageSize ≤ size ∧ size ≤ maxPageSize := by
  simp only [isPageSize, Bool.and_eq_true, decide_eq_true_eq] at sized
  exact sized.1

namespace Writer

section MetaPage

variable (writer : Writer) (lastPage count : Nat)

def metaFields : List (Nat × Bytes) :=
  [(12, writer.word magic ++ writer.word 9 ++ writer.word writer.pageSize),
    (25, [UInt8.ofNat metaPageType]), (32, writer.word lastPage),
    (40, writer.word count ++ writer.word count)]

theorem metaPage_eq : writer.metaPage lastPage count =
    overwriteAll (Bytes.zeros writer.pageSize) (writer.metaFields lastPage count) := rfl

variable (enough : minPageSize ≤ writer.pageSize)
include enough

private theorem metaFields_fit :
    FitIn (Bytes.zeros writer.pageSize) (writer.metaFields lastPage count) := by
  intro field member
  simp only [minPageSize] at enough
  simp only [metaFields, List.mem_cons, List.not_mem_nil, or_false] at member
  rw [Bytes.zeros, List.length_replicate]
  rcases member with rfl | rfl | rfl | rfl
  all_goals
    simp
    omega

theorem length_metaPage : (writer.metaPage lastPage count).length = writer.pageSize := by
  rw [metaPage_eq, length_overwriteAll (metaFields_fit writer lastPage count enough)]
  exact List.length_replicate ..

private theorem slice_metaPage_first {offset length : Nat} (inside : offset + length ≤ 12) :
    slice (writer.metaPage lastPage count) (12 + offset) length =
      slice (writer.word magic ++ writer.word 9 ++ writer.word writer.pageSize) offset length := by
  rw [metaPage_eq]
  refine (slice_overwriteAll_within [] ((writer.metaFields lastPage count).drop 1) 12
    (metaFields_fit writer lastPage count enough) (Nat.le_add_right ..) ?_ ?_).trans ?_
  · simp
    omega
  · intro field member
    simp only [metaFields, List.drop_succ_cons, List.drop_zero, List.mem_cons, List.not_mem_nil,
      or_false] at member
    rcases member with rfl | rfl | rfl
    all_goals
      simp
      omega
  · rw [Nat.add_sub_cancel_left]

theorem slice_metaPage_magic :
    slice (writer.metaPage lastPage count) 12 4 = writer.word magic := by
  rw [← Nat.add_zero 12, slice_metaPage_first writer lastPage count enough (by decide),
    List.append_assoc, Bytes.slice_zero _ (length_word ..)]

theorem slice_metaPage_pageSize :
    slice (writer.metaPage lastPage count) 20 4 = writer.word writer.pageSize := by
  change slice _ (12 + 8) 4 = _
  rw [slice_metaPage_first writer lastPage count enough (by decide),
    Bytes.slice_append_right _ 0 _ (by simp), Bytes.slice_self (length_word ..)]

theorem slice_metaPage_encryption : slice (writer.metaPage lastPage count) 24 1 = [0] := by
  rw [metaPage_eq, slice_overwriteAll_apart (metaFields_fit writer lastPage count enough)]
  · have rest : writer.pageSize - 24 = writer.pageSize - 25 + 1 := by
      simp only [minPageSize] at enough
      omega
    rw [slice, Bytes.zeros, List.drop_replicate, rest, List.replicate_succ]
    rfl
  · intro field member
    simp only [metaFields, List.mem_cons, List.not_mem_nil, or_false] at member
    rcases member with rfl | rfl | rfl | rfl
    all_goals simp

theorem slice_metaPage_type :
    slice (writer.metaPage lastPage count) 25 1 = [UInt8.ofNat metaPageType] := by
  rw [metaPage_eq]
  refine slice_overwriteAll_self ((writer.metaFields lastPage count).take 1)
    ((writer.metaFields lastPage count).drop 2)
    (metaFields_fit writer lastPage count enough) rfl ?_
  intro field member
  simp only [metaFields, List.drop_succ_cons, List.drop_zero, List.mem_cons, List.not_mem_nil,
    or_false] at member
  rcases member with rfl | rfl
  all_goals simp

theorem slice_metaPage_lastPage :
    slice (writer.metaPage lastPage count) 32 4 = writer.word lastPage := by
  rw [metaPage_eq]
  refine slice_overwriteAll_self ((writer.metaFields lastPage count).take 2)
    ((writer.metaFields lastPage count).drop 3)
    (metaFields_fit writer lastPage count enough) (length_word ..) ?_
  intro field member
  simp only [metaFields, List.drop_succ_cons, List.drop_zero, List.mem_cons, List.not_mem_nil,
    or_false] at member
  rw [member]
  simp

end MetaPage

end Writer

section Parsing

/-- The mark reads right in the byte order of the file only. -/
theorem orderOf?_of_slice {order : ByteOrder} {data : Bytes}
    (mark : slice data 12 4 = Bytes.ofNatIn order 4 magic) : orderOf? data = some order := by
  rw [orderOf?, mark]
  cases order <;> decide

theorem getD_of_slice {data : Bytes} {offset : Nat} {byte : UInt8}
    (stored : slice data offset 1 = [byte]) : data.getD offset 0 = byte := by
  rw [List.getD_eq_getElem?_getD, Bytes.getElem?_of_slice stored, Option.getD_some]

/-- Pages behind a first page are parsed as they were written. -/
theorem parse_flatten {writer : Writer} {lastPage count : Nat} {rest : List Bytes}
    (sized : isPageSize writer.pageSize = true)
    (sizes : ∀ page ∈ rest, page.length = writer.pageSize) (pages : rest.length = lastPage)
    (fits : lastPage < 0x100000000) :
    parse (writer.metaPage lastPage count :: rest).flatten =
      .ok ⟨writer.order, writer.pageSize, lastPage,
        ((writer.metaPage lastPage count :: rest).map List.toArray).toArray⟩ := by
  obtain ⟨smallest, largest⟩ := le_of_isPageSize sized
  have first := Writer.length_metaPage writer lastPage count smallest
  have sizes' : ∀ page ∈ writer.metaPage lastPage count :: rest, page.length = writer.pageSize :=
    List.forall_mem_cons.mpr ⟨first, sizes⟩
  have long := Bytes.length_flatten_of_sizes sizes'
  rw [List.length_cons, pages] at long
  have sliced {offset length : Nat} (inside : offset + length ≤ minPageSize) :
      slice (writer.metaPage lastPage count :: rest).flatten offset length =
        slice (writer.metaPage lastPage count) offset length := by
    rw [List.flatten_cons, Bytes.slice_append_left _ (by omega)]
  have order : orderOf? (writer.metaPage lastPage count :: rest).flatten = some writer.order :=
    orderOf?_of_slice ((sliced (by decide)).trans
      (Writer.slice_metaPage_magic writer lastPage count smallest))
  have pageSize : (slice (writer.metaPage lastPage count :: rest).flatten 20 4).natIn
      writer.order = writer.pageSize := by
    simp only [maxPageSize] at largest
    rw [sliced (by decide), Writer.slice_metaPage_pageSize writer lastPage count smallest,
      Writer.word, Bytes.natIn_ofNatIn _ (by omega)]
  have last : (slice (writer.metaPage lastPage count :: rest).flatten 32 4).natIn
      writer.order = lastPage := by
    rw [sliced (by decide), Writer.slice_metaPage_lastPage writer lastPage count smallest,
      Writer.word, Bytes.natIn_ofNatIn _ fits]
  have plain : (writer.metaPage lastPage count :: rest).flatten.getD 24 0 = 0 :=
    getD_of_slice ((sliced (by decide)).trans
      (Writer.slice_metaPage_encryption writer lastPage count smallest))
  have type : (writer.metaPage lastPage count :: rest).flatten.getD 25 0 =
      UInt8.ofNat metaPageType :=
    getD_of_slice ((sliced (by decide)).trans
      (Writer.slice_metaPage_type writer lastPage count smallest))
  have whole : ¬ (writer.metaPage lastPage count :: rest).flatten.length < minPageSize := by
    rw [List.flatten_cons, List.length_append, first]
    omega
  have complete : ¬ (writer.metaPage lastPage count :: rest).flatten.length <
      (lastPage + 1) * writer.pageSize := by
    rw [long]
    exact Nat.lt_irrefl _
  have told : (Bytes.chunks writer.pageSize
      (writer.metaPage lastPage count :: rest).flatten).map List.toArray =
      ((writer.metaPage lastPage count :: rest).map List.toArray).toArray := by
    rw [← Array.toList_inj, Array.toList_map, Bytes.toList_chunks_flatten _ sizes']
    simp only [minPageSize] at smallest
    omega
  have metaType : (UInt8.ofNat metaPageType).toNat = metaPageType := rfl
  simp only [parse, if_neg whole, order, pageSize, last, plain, type, metaType, ne_eq,
    not_true_eq_false, if_false, sized, Bool.not_true, Bool.false_eq_true, if_neg complete, told]

end Parsing

end ImageAudit.Rpm.HashFile
