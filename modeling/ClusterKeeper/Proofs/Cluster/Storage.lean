import ClusterKeeper.Cluster.Storage
import ClusterKeeper.Decimal.Binary64
import ClusterKeeper.Proofs.Text
import Mathlib.Data.List.TakeWhile
import Mathlib.Data.Nat.Digits.Defs
import Mathlib.Tactic.Positivity
import Mathlib.Tactic.SplitIfs

/-!
How the storage limit is written, and what a size and its limit come to in bytes. A size may be in
units of 1024 where its limit is in units of 1000, so that the limit is never more than the size; a
limit is its own limit.
-/

namespace ClusterKeeper.Storage

/-! ### The characters of a limit -/

def matchingUnits : List (String × String) :=
  [("Ki", "KB"), ("k", "KB"), ("Mi", "MB"), ("M", "MB"), ("Gi", "GB"), ("G", "GB"), ("Ti", "TB"),
   ("T", "TB"), ("Pi", "PB"), ("P", "PB"), ("", "B")]

theorem unit?_eq_some_iff {suffix unit : String} :
    unit? suffix.toList = some unit ↔ (suffix, unit) ∈ matchingUnits := by
  have spelled {text : String} {letters : List Char} (h : text.toList = letters) :
      text = String.ofList letters := by
    rw [← h, String.ofList_toList]
  constructor
  · intro h
    unfold unit? at h
    split_ifs at h with hk hm hg ht hp hb
    case pos => cases h; rcases hk with h | h <;> rw [spelled h] <;> decide
    case pos => cases h; rcases hm with h | h <;> rw [spelled h] <;> decide
    case pos => cases h; rcases hg with h | h <;> rw [spelled h] <;> decide
    case pos => cases h; rcases ht with h | h <;> rw [spelled h] <;> decide
    case pos => cases h; rcases hp with h | h <;> rw [spelled h] <;> decide
    case pos => cases h; rw [spelled hb]; decide
  · have hall : ∀ entry ∈ matchingUnits, unit? entry.1.toList = some entry.2 := by decide +kernel
    exact hall (suffix, unit)

theorem isAlpha_of_unit? {suffix : List Char} {unit : String} (h : unit? suffix = some unit) :
    (suffix ++ unit.toList).all Char.isAlpha = true := by
  have hall : ∀ entry ∈ matchingUnits,
      (entry.1.toList ++ entry.2.toList).all Char.isAlpha = true := by decide +kernel
  rw [← String.toList_ofList (l := suffix)] at h ⊢
  exact hall _ (unit?_eq_some_iff.mp h)

/-- The limit is the trimmed size, or else that is an amount in a known unit, whose name alone is
another one in the limit. -/
theorem datastoreMax_cases (quantity : String) :
    (datastoreMax quantity).toList = Text.trimChars quantity.toList ∨
      ∃ amount suffix unit, Text.trimChars quantity.toList = amount ++ suffix ∧ amount ≠ [] ∧
        (∀ c ∈ amount, isAmountChar c = true) ∧ unit? suffix = some unit ∧
          (datastoreMax quantity).toList = amount ++ unit.toList := by
  rw [datastoreMax]
  generalize Text.trimChars quantity.toList = size
  cases hunit : unit? (size.dropWhile isAmountChar) with
  | none => exact .inl (String.toList_ofList)
  | some unit =>
      by_cases hamount : size.takeWhile isAmountChar = []
      · left
        simp only [if_pos hamount, String.toList_ofList]
      · refine .inr ⟨_, _, unit, List.takeWhile_append_dropWhile.symm, hamount,
          fun c hc => List.mem_takeWhile_imp hc, hunit, ?_⟩
        simp only [if_neg hamount, String.toList_append, String.toList_ofList]

/-! ### Amounts and units -/

def digitsValue (digits : List Char) : ℕ :=
  Nat.ofDigits 10 (digits.reverse.map fun c => c.toNat - '0'.toNat)

/-- The number that an amount is in decimal notation: digits, and at most one point before, among or
after them. -/
def decimal? (amount : List Char) : Option ℚ :=
  let whole := amount.takeWhile Char.isDigit
  match amount.dropWhile Char.isDigit with
  | [] => if whole = [] then none else some (digitsValue whole)
  | point :: fraction =>
    if point = '.' ∧ fraction.all Char.isDigit ∧ whole ++ fraction ≠ [] then
      some (digitsValue (whole ++ fraction) / 10 ^ fraction.length)
    else none

theorem decimal?_nonneg {amount : List Char} {number : ℚ} (h : decimal? amount = some number) :
    0 ≤ number := by
  rw [decimal?] at h
  split at h
  · split at h <;> cases h
    exact Nat.cast_nonneg _
  · split at h <;> cases h
    positivity

def sizeUnits : List (String × ℕ) :=
  [("", 1), ("k", tenTo 3), ("M", tenTo 6), ("G", tenTo 9), ("T", tenTo 12), ("P", tenTo 15),
   ("E", tenTo 18), ("Ki", twoTo 10), ("Mi", twoTo 20), ("Gi", twoTo 30), ("Ti", twoTo 40),
   ("Pi", twoTo 50), ("Ei", twoTo 60)]

def limitUnits : List (String × ℕ) :=
  [("B", 1), ("KB", tenTo 3), ("MB", tenTo 6), ("GB", tenTo 9), ("TB", tenTo 12), ("PB", tenTo 15)]

/-- The bytes that an amount with a unit comes to. -/
def bytes? (units : List (String × ℕ)) (text : String) : Option ℚ := do
  let number ← decimal? (text.toList.takeWhile isAmountChar)
  let unit ← units.lookup (String.ofList (text.toList.dropWhile isAmountChar))
  return number * unit

def binarySuffixes : List String := ["Ki", "Mi", "Gi", "Ti", "Pi"]

/-- No suffix and no unit begins as an amount does. -/
theorem takeWhile_amount {amount letters : List Char} (hamount : ∀ c ∈ amount, isAmountChar c = true)
    (hletters : letters.takeWhile isAmountChar = []) :
    (amount ++ letters).takeWhile isAmountChar = amount ∧
      (amount ++ letters).dropWhile isAmountChar = letters := by
  rw [List.takeWhile_append_of_pos hamount, List.dropWhile_append_of_pos hamount, hletters,
    List.append_nil]
  refine ⟨rfl, ?_⟩
  have h := List.takeWhile_append_dropWhile (p := isAmountChar) (l := letters)
  rwa [hletters, List.nil_append] at h

theorem bytes?_append {units : List (String × ℕ)} {amount : List Char} {unit : String} {number : ℚ}
    {bytes : ℕ} (hamount : ∀ c ∈ amount, isAmountChar c = true)
    (hletters : unit.toList.takeWhile isAmountChar = []) (hnumber : decimal? amount = some number)
    (hunit : units.lookup unit = some bytes) :
    bytes? units (String.ofList amount ++ unit) = some (number * bytes) := by
  obtain ⟨htake, hdrop⟩ := takeWhile_amount hamount hletters
  rw [bytes?, String.toList_append, String.toList_ofList, htake, hdrop, String.ofList_toList, hnumber,
    hunit]
  rfl

theorem matchingUnits_spec : ∀ entry ∈ matchingUnits,
    entry.1.toList.takeWhile isAmountChar = [] ∧ entry.2.toList.takeWhile isAmountChar = [] ∧
      unit? entry.2.toList = none ∧ entry.2.toList.any Text.isBlank = false ∧
        ∃ size ∈ sizeUnits.lookup entry.1, ∃ limit ∈ limitUnits.lookup entry.2,
          limit ≤ size ∧ (entry.1 ∉ binarySuffixes → limit = size) := by
  decide +kernel

/-! ### Limits -/

/-- The trimmed size is an amount with a suffix that limits have a unit for. -/
structure IsAmount (quantity : String) (amount : List Char) (suffix unit : String) : Prop where
  size : Text.trim quantity = String.ofList amount ++ suffix
  ne_nil : amount ≠ []
  digits : ∀ c ∈ amount, isAmountChar c = true
  unit : (suffix, unit) ∈ matchingUnits

section

variable {quantity suffix unit : String} {amount : List Char}

theorem IsAmount.split (h : IsAmount quantity amount suffix unit) :
    (Text.trimChars quantity.toList).takeWhile isAmountChar = amount ∧
      (Text.trimChars quantity.toList).dropWhile isAmountChar = suffix.toList := by
  have hsize := congrArg String.toList h.size
  rw [Text.toList_trim, String.toList_append, String.toList_ofList] at hsize
  rw [hsize]
  exact takeWhile_amount h.digits (matchingUnits_spec _ h.unit).1

theorem datastoreMax_of_isAmount (h : IsAmount quantity amount suffix unit) :
    datastoreMax quantity = String.ofList amount ++ unit := by
  obtain ⟨htake, hdrop⟩ := h.split
  simp only [datastoreMax, htake, hdrop, unit?_eq_some_iff.mpr h.unit, if_neg h.ne_nil]

theorem datastoreMax_of_not_isAmount (h : ∀ amount suffix unit, ¬IsAmount quantity amount suffix unit) :
    datastoreMax quantity = Text.trim quantity := by
  rw [datastoreMax, Text.trim]
  cases hunit : unit? ((Text.trimChars quantity.toList).dropWhile isAmountChar) with
  | none => rfl
  | some unit =>
      by_cases hne : (Text.trimChars quantity.toList).takeWhile isAmountChar = []
      · simp only [if_pos hne]
      · have hamount : IsAmount quantity ((Text.trimChars quantity.toList).takeWhile isAmountChar)
            (String.ofList ((Text.trimChars quantity.toList).dropWhile isAmountChar)) unit := by
          refine ⟨?_, hne, fun c hc => List.mem_takeWhile_imp hc, ?_⟩
          · rw [← String.ofList_append, List.takeWhile_append_dropWhile, Text.trim]
          · rw [← unit?_eq_some_iff, String.toList_ofList, hunit]
        exact absurd hamount (h _ _ _)

theorem isBlank_of_isAmountChar {c : Char} (h : isAmountChar c = true) : Text.isBlank c = false := by
  rw [isAmountChar, Bool.or_eq_true, decide_eq_true_eq] at h
  rcases h with h | rfl
  · have hrange : 48 ≤ c.toNat ∧ c.toNat ≤ 57 := by
      simp only [Char.isDigit, Bool.and_eq_true, decide_eq_true_eq, ge_iff_le,
        UInt32.le_iff_toNat_le] at h
      exact h
    simp only [Text.isBlank, Text.blankRanges, List.any_cons, List.any_nil, Bool.or_false,
      Bool.or_eq_false_iff, Bool.and_eq_false_iff, decide_eq_false_iff_not]
    omega
  · decide

theorem trim_limit (h : IsAmount quantity amount suffix unit) :
    Text.trim (String.ofList amount ++ unit) = String.ofList amount ++ unit := by
  rw [Text.trim, Text.trimChars_eq_self, String.ofList_toList]
  intro c hc
  rw [String.toList_append, String.toList_ofList, List.mem_append] at hc
  rcases hc with hc | hc
  · exact isBlank_of_isAmountChar (h.digits c hc)
  · have hblank := List.any_eq_false.mp (matchingUnits_spec _ h.unit).2.2.2.1 c hc
    rwa [Bool.not_eq_true] at hblank

/-- A limit has no suffix that a limit has a unit for. -/
theorem not_isAmount_limit (h : IsAmount quantity amount suffix unit) (amount' : List Char)
    (suffix' unit' : String) :
    ¬IsAmount (String.ofList amount ++ unit) amount' suffix' unit' := by
  intro hlimit
  obtain ⟨-, hletters, hnone, -⟩ := matchingUnits_spec _ h.unit
  have hsuffix := hlimit.split.2
  rw [← Text.toList_trim, trim_limit h, String.toList_append, String.toList_ofList,
    (takeWhile_amount h.digits hletters).2] at hsuffix
  cases hnone.symm.trans (hsuffix ▸ unit?_eq_some_iff.mpr hlimit.unit)

theorem datastoreMax_datastoreMax (quantity : String) :
    datastoreMax (datastoreMax quantity) = datastoreMax quantity := by
  by_cases h : ∃ amount suffix unit, IsAmount quantity amount suffix unit
  · obtain ⟨amount, suffix, unit, h⟩ := h
    rw [datastoreMax_of_isAmount h, datastoreMax_of_not_isAmount (not_isAmount_limit h), trim_limit h]
  · simp only [not_exists] at h
    have htrim : Text.trim (Text.trim quantity) = Text.trim quantity := by
      rw [Text.trim, Text.toList_trim, Text.trimChars_trimChars, Text.trim]
    have hagain (amount : List Char) (suffix unit : String) :
        ¬IsAmount (Text.trim quantity) amount suffix unit := fun hsize =>
      h amount suffix unit ⟨htrim ▸ hsize.size, hsize.ne_nil, hsize.digits, hsize.unit⟩
    rw [datastoreMax_of_not_isAmount h, datastoreMax_of_not_isAmount hagain, htrim]

/-- In bytes a limit is at most the size, and just the size unless that is in units of 1024. -/
theorem bytes?_datastoreMax_le {number : ℚ} (h : IsAmount quantity amount suffix unit)
    (hnumber : decimal? amount = some number) :
    ∃ size limit, bytes? sizeUnits (Text.trim quantity) = some size ∧
      bytes? limitUnits (datastoreMax quantity) = some limit ∧ limit ≤ size ∧
        (suffix ∉ binarySuffixes → limit = size) := by
  obtain ⟨hsuffix, hletters, -, -, size, hsize, limit, hlimit, hle, heq⟩ :=
    matchingUnits_spec _ h.unit
  refine ⟨number * size, number * limit, ?_, ?_, ?_, fun hdecimal => by rw [heq hdecimal]⟩
  · rw [h.size]
    exact bytes?_append h.digits hsuffix hnumber hsize
  · rw [datastoreMax_of_isAmount h]
    exact bytes?_append h.digits hletters hnumber hlimit
  · exact mul_le_mul_of_nonneg_left (Nat.cast_le.mpr hle) (decimal?_nonneg hnumber)

end

/-- The limit of an amount with a known suffix is that amount in the unit of the suffix, and comes to
no more bytes than the size, to as many if the suffix is decimal; the limit of any other size is the
trimmed size; a limit is its own limit. -/
theorem limit_within_volume (quantity : String) :
    (∀ amount suffix unit, IsAmount quantity amount suffix unit →
      datastoreMax quantity = String.ofList amount ++ unit ∧
        ∀ number, decimal? amount = some number →
          ∃ size limit, bytes? sizeUnits (Text.trim quantity) = some size ∧
            bytes? limitUnits (datastoreMax quantity) = some limit ∧ limit ≤ size ∧
              (suffix ∉ binarySuffixes → limit = size)) ∧
      ((∀ amount suffix unit, ¬IsAmount quantity amount suffix unit) →
        datastoreMax quantity = Text.trim quantity) ∧
      datastoreMax (datastoreMax quantity) = datastoreMax quantity := by
  refine ⟨fun amount suffix unit h => ⟨datastoreMax_of_isAmount h, fun number hnumber => ?_⟩,
    datastoreMax_of_not_isAmount, datastoreMax_datastoreMax quantity⟩
  exact bytes?_datastoreMax_le h hnumber

/-- Of a volume of 1.5Gi, with blanks around it, the datastore takes 1.5GB; a size of 1e9 is kept. -/
theorem limit_within_volume_padded :
    (IsAmount " 1.5Gi\n" ['1', '.', '5'] "Gi" "GB" ∧ decimal? ['1', '.', '5'] = some (3 / 2) ∧
      datastoreMax " 1.5Gi\n" = "1.5GB" ∧
        ∃ size limit, bytes? sizeUnits (Text.trim " 1.5Gi\n") = some size ∧
          bytes? limitUnits "1.5GB" = some limit ∧ limit ≤ size) ∧
      (∀ amount suffix unit, ¬IsAmount "1e9" amount suffix unit) ∧
        datastoreMax "1e9" = Text.trim "1e9" := by
  have hamount : IsAmount " 1.5Gi\n" ['1', '.', '5'] "Gi" "GB" :=
    ⟨by decide +kernel, nofun, List.all_eq_true.mp (by decide), by decide +kernel⟩
  have hnumber : decimal? ['1', '.', '5'] = some (3 / 2) := by decide +kernel
  obtain ⟨hmax, hbytes⟩ := (limit_within_volume " 1.5Gi\n").1 _ _ _ hamount
  obtain ⟨size, limit, hsize, hlimit, hle, -⟩ := hbytes _ hnumber
  rw [hmax] at hlimit
  have hother (amount : List Char) (suffix unit : String) : ¬IsAmount "1e9" amount suffix unit := by
    intro h
    have hnone : unit? ((Text.trimChars "1e9".toList).dropWhile isAmountChar) = none := by
      decide +kernel
    rw [h.split.2, unit?_eq_some_iff.mpr h.unit] at hnone
    cases hnone
  exact ⟨⟨hamount, hnumber, hmax, size, limit, hsize, hlimit, hle⟩, hother,
    (limit_within_volume "1e9").2.1 hother⟩

end ClusterKeeper.Storage
