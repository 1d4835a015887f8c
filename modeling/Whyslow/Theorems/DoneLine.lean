import Whyslow.Reproducer

/-! The test reads back the ids that the synthetic program prints, whatever else the two programs write before and behind
    its line. -/

namespace Whyslow

/-! ### Lines and fields -/

theorem linesFrom_append_newline (line a b : List Char) :
    linesFrom line (a ++ '\n' :: b) = linesFrom line (a ++ ['\n']) ++ lines b := by
  induction a generalizing line with
  | nil => simp [linesFrom, lines]
  | cons c a ih =>
    by_cases hc : c = '\n'
    · simp [linesFrom, hc, ih]
    · simp [linesFrom, hc, ih]

/-- What ends with a newline, or is empty, is cut into lines of its own. -/
theorem lines_append {a : List Char} (h : a = [] ∨ a.getLast? = some '\n') (b : List Char) :
    lines (a ++ b) = lines a ++ lines b := by
  rcases h with rfl | h
  · rfl
  · obtain ⟨a, rfl⟩ := List.getLast?_eq_some_iff.mp h
    rw [List.append_assoc]
    exact linesFrom_append_newline [] a b

theorem linesFrom_line (line : List Char) {a : List Char} (h : '\n' ∉ a) (b : List Char) :
    linesFrom line (a ++ '\n' :: b) = linesFrom (line ++ a) ('\n' :: b) := by
  induction a generalizing line with
  | nil => simp
  | cons c a ih =>
    rw [List.mem_cons, not_or] at h
    rw [List.cons_append, linesFrom, if_neg (Ne.symm h.1), ih _ h.2]
    simp

/-- A line without a newline in it and without a carriage return at its end. -/
theorem lines_line {a : List Char} (h : '\n' ∉ a) (hcr : a.getLast? ≠ some '\r') (b : List Char) :
    lines (a ++ '\n' :: b) = a :: lines b := by
  rw [lines, linesFrom_line [] h]
  simp [linesFrom, hcr, lines]

theorem splitWhitespace_field {a : List Char} (hne : a ≠ []) (h : ∀ c ∈ a, isWhiteSpace c = false) (b : List Char) :
    splitWhitespace (a ++ ' ' :: b) = a :: splitWhitespace b := by
  rw [splitWhitespace, List.splitOnP_append_cons_of_forall_mem h ' ' (by decide) b]
  simp [splitWhitespace, hne]

theorem splitWhitespace_last {a : List Char} (hne : a ≠ []) (h : ∀ c ∈ a, isWhiteSpace c = false) :
    splitWhitespace a = [a] := by
  rw [splitWhitespace, List.splitOnP_eq_singleton h]
  simp [hne]

@[simp] theorem stripPrefix_append (p a : List Char) : stripPrefix p (p ++ a) = some a := by
  simp [stripPrefix]

/-! ### Numbers -/

theorem toString_toList (n : UInt32) : (toString n).toList = Nat.toDigits 10 n.toNat := Nat.toList_repr

theorem isDigit_of_mem {n : UInt32} {c : Char} (h : c ∈ (toString n).toList) : c.isDigit := by
  rw [toString_toList] at h
  exact Nat.isDigit_of_mem_toDigits (by decide) (by decide) h

theorem isWhiteSpace_of_isDigit {c : Char} (h : c.isDigit) : isWhiteSpace c = false := by
  have hle : 48 ≤ c.toNat ∧ c.toNat ≤ 57 := by
    simp only [Char.isDigit, Bool.and_eq_true, decide_eq_true_eq, UInt32.le_iff_toNat_le, ge_iff_le] at h
    exact h
  simp only [isWhiteSpace, Bool.or_eq_false_iff, Bool.and_eq_false_iff, decide_eq_false_iff_not, beq_eq_false_iff_ne]
  omega

theorem parseU32_toString (n : UInt32) : parseU32 (toString n).toList = some n := by
  have hdigits : ∀ c ∈ Nat.toDigits 10 n.toNat, c.isDigit := fun c hc =>
    Nat.isDigit_of_mem_toDigits (by decide) (by decide) hc
  have hplus : (Nat.toDigits 10 n.toNat).head? ≠ some '+' := by
    intro h
    have := hdigits '+' (List.mem_of_mem_head? h)
    revert this
    decide
  have hany : (Nat.toDigits 10 n.toNat).any (fun c => !c.isDigit) = false := by
    rw [List.any_eq_false]
    intro c hc
    simp [hdigits c hc]
  have hvalue : (Nat.toDigits 10 n.toNat).foldl (fun n c => 10 * n + (c.toNat - '0'.toNat)) 0 = n.toNat := by
    rw [← Nat.ofDigitChars_eq_foldl, Nat.ofDigitChars_ten_toDigits]
  rw [toString_toList, parseU32]
  simp only [if_neg hplus, hany, hvalue, Nat.toDigits_ne_nil, if_pos n.toNat_lt]
  simp

/-! ### The line -/

/-- A field of the line: a name without white space, and a number. -/
theorem isWhiteSpace_of_mem_field {name : List Char} {n : UInt32} (h : ∀ c ∈ name, isWhiteSpace c = false) {c : Char}
    (hc : c ∈ name ++ (toString n).toList) : isWhiteSpace c = false := by
  rcases List.mem_append.mp hc with hc | hc
  · exact h c hc
  · exact isWhiteSpace_of_isDigit (isDigit_of_mem hc)

section Line
variable (pid holderTid waiterTid : UInt32)

/-- The line without its newline. -/
def doneFields : List Char :=
  "SYNTHETIC_DONE".toList ++ ' ' :: (("pid=".toList ++ (toString pid).toList) ++ ' ' ::
    (("holder_tid=".toList ++ (toString holderTid).toList) ++ ' ' ::
      ("waiter_tid=".toList ++ (toString waiterTid).toList)))

theorem doneLine_toList : (doneLine pid holderTid waiterTid).toList = doneFields pid holderTid waiterTid ++ ['\n'] := by
  have hpid : "SYNTHETIC_DONE pid=".toList = "SYNTHETIC_DONE".toList ++ ' ' :: "pid=".toList := by simp
  have hholder : " holder_tid=".toList = ' ' :: "holder_tid=".toList := by simp
  have hwaiter : " waiter_tid=".toList = ' ' :: "waiter_tid=".toList := by simp
  have hend : "\n".toList = ['\n'] := by simp
  -- The equation lemma of a definition by appended literals is out of reach for `simp`.
  delta doneLine doneFields
  simp only [String.toList_append, hpid, hholder, hwaiter, hend, List.append_assoc, List.cons_append]

theorem isWhiteSpace_of_mem_names {name : List Char}
    (hname : name = "SYNTHETIC_DONE".toList ∨ name = "pid=".toList ∨ name = "holder_tid=".toList ∨
      name = "waiter_tid=".toList) : ∀ c ∈ name, isWhiteSpace c = false := by
  rcases hname with rfl | rfl | rfl | rfl <;> simp [isWhiteSpace]

theorem splitWhitespace_doneFields : splitWhitespace (doneFields pid holderTid waiterTid) =
    ["SYNTHETIC_DONE".toList, "pid=".toList ++ (toString pid).toList,
      "holder_tid=".toList ++ (toString holderTid).toList, "waiter_tid=".toList ++ (toString waiterTid).toList] := by
  delta doneFields
  rw [splitWhitespace_field (by simp) (isWhiteSpace_of_mem_names (by simp)), splitWhitespace_field (by simp) _,
    splitWhitespace_field (by simp) _, splitWhitespace_last (by simp) _]
  · exact fun c => isWhiteSpace_of_mem_field (isWhiteSpace_of_mem_names (by simp))
  · exact fun c => isWhiteSpace_of_mem_field (isWhiteSpace_of_mem_names (by simp))
  · exact fun c => isWhiteSpace_of_mem_field (isWhiteSpace_of_mem_names (by simp))

theorem notMem_doneFields {c : Char} (hc : isWhiteSpace c = true) (hne : c ≠ ' ') :
    c ∉ doneFields pid holderTid waiterTid := by
  have hfield : ∀ {name : List Char} {n : UInt32}, (∀ d ∈ name, isWhiteSpace d = false) →
      c ∉ name ++ (toString n).toList := by
    intro name n hname hmem
    cases hc.symm.trans (isWhiteSpace_of_mem_field hname hmem)
  have happend : ∀ {a b : List Char}, c ∉ a → c ∉ b → c ∉ a ++ ' ' :: b := by
    intro a b ha hb
    simp [ha, hb, hne]
  have hmark : c ∉ "SYNTHETIC_DONE".toList := by
    intro hmem
    cases hc.symm.trans (isWhiteSpace_of_mem_names (Or.inl rfl) c hmem)
  delta doneFields
  refine happend hmark (happend ?_ (happend ?_ ?_))
  · exact hfield (isWhiteSpace_of_mem_names (by simp))
  · exact hfield (isWhiteSpace_of_mem_names (by simp))
  · exact hfield (isWhiteSpace_of_mem_names (by simp))

theorem lines_doneLine (after : List Char) : lines ((doneLine pid holderTid waiterTid).toList ++ after) =
    doneFields pid holderTid waiterTid :: lines after := by
  rw [doneLine_toList, List.append_assoc]
  refine lines_line (notMem_doneFields _ _ _ (by decide) (by decide)) ?_ after
  intro hcr
  exact notMem_doneFields _ _ _ (by decide) (by decide) (List.mem_of_getLast? hcr)

theorem foldl_parseField_doneFields :
    (splitWhitespace (doneFields pid holderTid waiterTid)).foldl parseField (none, none) =
      (some holderTid, some waiterTid) := by
  have hmark : ∀ tids, parseField tids "SYNTHETIC_DONE".toList = tids := by
    intro tids
    simp [parseField, stripPrefix]
  have hpid : ∀ tids v, parseField tids ("pid=".toList ++ v) = tids := by
    intro tids v
    simp [parseField, stripPrefix]
  have hholder : ∀ tids n, parseField tids ("holder_tid=".toList ++ (toString n).toList) = (some n, tids.2) := by
    intro tids n
    rw [parseField, stripPrefix_append]
    simp only [parseU32_toString]
  have hwaiter : ∀ tids n, parseField tids ("waiter_tid=".toList ++ (toString n).toList) = (tids.1, some n) := by
    intro tids n
    have hno : stripPrefix "holder_tid=".toList ("waiter_tid=".toList ++ (toString n).toList) = none := by
      simp [stripPrefix]
    rw [parseField, hno, stripPrefix_append]
    simp only [parseU32_toString]
  rw [splitWhitespace_doneFields]
  simp only [List.foldl_cons, List.foldl_nil, hmark, hpid, hholder, hwaiter]

/-- In the output of both programs the line is found and its ids are read back, if what comes before it ends with a
    newline and has no line with the mark of its own. -/
theorem parseSyntheticTids_doneLine {before : String} (after : String)
    (hend : before.toList = [] ∨ before.toList.getLast? = some '\n')
    (hlines : ∀ l ∈ lines before.toList, "SYNTHETIC_DONE".toList.isPrefixOf l = false) :
    parseSyntheticTids (before ++ doneLine pid holderTid waiterTid ++ after) = some (holderTid, waiterTid) := by
  have hmark : "SYNTHETIC_DONE".toList.isPrefixOf (doneFields pid holderTid waiterTid) = true := by
    delta doneFields
    simp only [List.isPrefixOf_iff_prefix, List.prefix_append]
  have hfind : (lines (before ++ doneLine pid holderTid waiterTid ++ after).toList).find?
      (fun l => "SYNTHETIC_DONE".toList.isPrefixOf l) = some (doneFields pid holderTid waiterTid) := by
    have hnone : (lines before.toList).find? (fun l => "SYNTHETIC_DONE".toList.isPrefixOf l) = none := by
      rw [List.find?_eq_none]
      intro l hl
      rw [hlines l hl]
      exact Bool.false_ne_true
    rw [String.toList_append, String.toList_append, List.append_assoc, lines_append hend, lines_doneLine,
      List.find?_append, hnone, Option.none_or, List.find?_cons_of_pos hmark]
  rw [parseSyntheticTids, hfind, Option.bind_eq_bind, Option.bind_some, foldl_parseField_doneFields]
  rfl

end Line

theorem parseSyntheticTids_doneLine_traced :
    parseSyntheticTids ("tracing: whyslow-synthetic\n" ++ doneLine 40 41 42 ++ "\nholder_tid=7\n") = some (41, 42) := by
  refine parseSyntheticTids_doneLine 40 41 42 _ (Or.inr ?_) ?_
  · simp
  · simp [lines, linesFrom, List.isPrefixOf]

end Whyslow
