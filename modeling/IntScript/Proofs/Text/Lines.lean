import IntScript.Proofs.Text.Cut
import IntScript.Shell.Setting

namespace IntScript.Text

def lines (text : String) : List String := (cutAfter '\n' text.toList).map String.ofList

theorem join_lines (text : String) : String.join (lines text) = text := by
  have h (ls : List (List Char)) : (String.join (ls.map String.ofList)).toList = ls.flatten := by
    induction ls with
    | nil => rfl
    | cons l ls ih => rw [List.map_cons, String.join_cons, String.toList_append, ih, List.flatten_cons, String.toList_ofList]
  rw [← String.toList_inj, lines, h, flatten_cutAfter]

section

variable {bytes : ByteArray} {start here : Nat}

theorem extract_eq (bytes : ByteArray) (start stop : Nat) :
    bytes.extract start stop = ((bytes.data.toList.take stop).drop start).toByteArray := by
  ext1
  rw [ByteArray.data_extract, List.data_toByteArray, ← Array.toList_inj, Array.toList_extract]
  simp [List.drop_take]

theorem drop_eq_append {l : List UInt8} (h : start ≤ here) (hl : here < l.length) :
    l.drop start = (l.take here).drop start ++ l[here] :: l.drop (here + 1) := by
  rw [← List.drop_eq_getElem_cons hl, ← List.drop_append_of_le_length, List.take_append_drop]
  rw [List.length_take]
  omega

theorem drop_take_succ {l : List UInt8} (h : start ≤ here) (hl : here < l.length) :
    (l.take (here + 1)).drop start = (l.take here).drop start ++ [l[here]] := by
  rw [← List.take_concat_get hl, List.concat_eq_append, List.drop_append_of_le_length]
  rw [List.length_take]
  omega

theorem rawLinesFrom_eq {fuel : Nat} (cut : List ByteArray) (hsize : bytes.size = here + fuel) (hle : start ≤ here)
    (hopen : (10 : UInt8) ∉ (bytes.data.toList.take here).drop start) :
    rawLinesFrom bytes fuel start here cut =
      cut.reverse ++ (cutAfter 10 (bytes.data.toList.drop start)).map List.toByteArray := by
  have hlength : bytes.data.toList.length = bytes.size := rfl
  induction fuel generalizing start here cut with
  | zero =>
      have htake : bytes.data.toList.take here = bytes.data.toList := List.take_of_length_le (Nat.le_of_eq hsize)
      rw [htake] at hopen
      rw [rawLinesFrom, extract_eq, htake]
      by_cases hlt : start < here
      · have hne : bytes.data.toList.drop start ≠ [] := by
          rw [Ne, List.drop_eq_nil_iff]
          omega
        rw [if_pos hlt, cutAfter_last hopen hne, List.reverse_cons]
        rfl
      · have hnil : bytes.data.toList.drop start = [] := by
          rw [List.drop_eq_nil_iff]
          omega
        rw [if_neg hlt, hnil, cutAfter, List.map_nil, List.append_nil]
  | succ fuel ih =>
      have hl : here < bytes.data.toList.length := by omega
      have hbyte : bytes[here]? = some bytes.data.toList[here] := getElem?_pos bytes here hl
      rw [rawLinesFrom, hbyte]
      by_cases hfeed : bytes.data.toList[here] = 10
      · rw [if_pos (congrArg some hfeed), ih _ (by omega) (Nat.le_refl _) (by simp), drop_eq_append hle hl, hfeed,
          cutAfter_append hopen, extract_eq, drop_take_succ hle hl, hfeed, List.reverse_cons, List.append_assoc]
        rfl
      · rw [if_neg (fun h => hfeed (Option.some.inj h)), ih _ (by omega) (Nat.le_succ_of_le hle)]
        rw [drop_take_succ hle hl, List.mem_append, List.mem_singleton]
        exact not_or.2 ⟨hopen, Ne.symm hfeed⟩

end

theorem rawLines_eq (bytes : ByteArray) :
    rawLines bytes = (cutAfter 10 bytes.data.toList).map List.toByteArray :=
  rawLinesFrom_eq [] (Nat.zero_add _).symm (Nat.le_refl 0) (by simp)

theorem feed_notMem_encode {c : Char} (hc : c ≠ '\n') : (10 : UInt8) ∉ String.utf8EncodeChar c := by
  have hv : c.val.toNat ≠ 10 := fun h => hc (Char.ext (UInt32.toNat_inj.1 h))
  have hbyte (n : Nat) (hn : n < 256) (h : n ≠ 10) : (10 : UInt8) ≠ UInt8.ofNat n := by
    intro he
    have hn' : 10 = n % 256 := by simpa using congrArg UInt8.toNat he
    omega
  unfold String.utf8EncodeChar
  dsimp only
  split_ifs
  all_goals
    simp only [List.mem_cons, List.not_mem_nil, or_false, not_or]
  · exact hbyte _ (by omega) hv
  · exact ⟨hbyte _ (by omega) (by omega), hbyte _ (by omega) (by omega)⟩
  · exact ⟨hbyte _ (by omega) (by omega), hbyte _ (by omega) (by omega), hbyte _ (by omega) (by omega)⟩
  · exact ⟨hbyte _ (by omega) (by omega), hbyte _ (by omega) (by omega), hbyte _ (by omega) (by omega),
      hbyte _ (by omega) (by omega)⟩

theorem cutAfter_encode (cs : List Char) :
    cutAfter 10 (cs.flatMap String.utf8EncodeChar) = (cutAfter '\n' cs).map (·.flatMap String.utf8EncodeChar) := by
  have hopen {l : List Char} (hl : '\n' ∉ l) : (10 : UInt8) ∉ l.flatMap String.utf8EncodeChar := by
    intro h
    obtain ⟨c, hc, hm⟩ := List.mem_flatMap.1 h
    exact feed_notMem_encode (fun he => hl (he ▸ hc)) hm
  induction cs using cut_induction '\n' with
  | nil => rfl
  | last l hne hl =>
      have hbytes : l.flatMap String.utf8EncodeChar ≠ [] := by
        obtain ⟨c, cs, rfl⟩ := List.exists_cons_of_ne_nil hne
        simp [String.utf8EncodeChar_ne_nil]
      rw [cutAfter_last (hopen hl) hbytes, cutAfter_last hl hne]
      rfl
  | line l rest hl ih =>
      have hfeed : String.utf8EncodeChar '\n' = [10] := rfl
      rw [List.flatMap_append, List.flatMap_cons, hfeed, List.singleton_append, cutAfter_append (hopen hl), ih,
        cutAfter_append hl, List.map_cons, List.flatMap_append]
      rfl

theorem toUTF8_ofList (cs : List Char) :
    (String.ofList cs).toUTF8 = (cs.flatMap String.utf8EncodeChar).toByteArray := String.toByteArray_ofList

theorem fromUTF8?_toUTF8 (text : String) : String.fromUTF8? text.toUTF8 = some text := dif_pos text.isValidUTF8

/-- The lines of an encoded text are the encoded lines of the text. -/
theorem rawLines_toUTF8 (text : String) : rawLines text.toUTF8 = (lines text).map String.toUTF8 := by
  have hbytes : text.toUTF8.data.toList = text.toList.flatMap String.utf8EncodeChar := by
    conv_lhs => rw [← String.ofList_toList (s := text), toUTF8_ofList, List.data_toByteArray]
  rw [rawLines_eq, hbytes, cutAfter_encode, lines, List.map_map, List.map_map]
  exact List.map_congr_left fun l _ => (toUTF8_ofList l).symm

end IntScript.Text
