import ClusterKeeper.Calendar
import Mathlib.Algebra.Group.Nat.Defs
import Mathlib.Tactic.SplitIfs

/-!
What is written of a moment is read as that moment.
-/

namespace ClusterKeeper

theorem Date.of?_self (date : Date) : of? date.year date.month date.day = some date :=
  dif_pos ⟨date.year_lt, date.month_mem, date.day_mem⟩

theorem Date.day_lt (date : Date) : date.day < 100 := by
  have hlength : monthLength date.year date.month ≤ 31 := by
    unfold monthLength
    split_ifs <;> decide
  have hday := date.day_mem.2
  omega

namespace Moment

theorem digit_spec {n : Nat} (h : n < 10) :
    (Char.ofNat (48 + n)).isDigit = true ∧ (Char.ofNat (48 + n)).toNat = 48 + n := by
  have hall : ∀ n < 10, (Char.ofNat (48 + n)).isDigit = true ∧
      (Char.ofNat (48 + n)).toNat = 48 + n := by decide
  exact hall n h

theorem readDigits_digits (count n : Nat) (rest : List Char) :
    readDigits count (digits count n ++ rest) = some (n % 10 ^ count, rest) := by
  induction count generalizing n rest with
  | zero => simp [readDigits, digits, Nat.mod_one]
  | succ count ih =>
      obtain ⟨hdigit, hvalue⟩ := digit_spec (Nat.mod_lt n (show 0 < 10 by decide))
      have hsplit : n / 10 % 10 ^ count * 10 + n % 10 = n % 10 ^ (count + 1) := by
        rw [Nat.pow_succ', Nat.mod_mul]
        omega
      rw [digits, List.append_assoc, readDigits, ih]
      simp only [List.cons_append, List.nil_append, bind, Option.bind, hdigit, hvalue,
        Nat.add_sub_cancel_left, hsplit, if_true]

theorem readDigits_of_lt {count n : Nat} (h : n < 10 ^ count) (rest : List Char) :
    readDigits count (digits count n ++ rest) = some (n, rest) := by
  rw [readDigits_digits, Nat.mod_eq_of_lt h]

theorem readMark_cons {c : Char} {marks : List Char} (h : c ∈ marks) (rest : List Char) :
    readMark marks (c :: rest) = some rest := if_pos h

theorem readDate_dateChars (date : Date) (rest : List Char) :
    readDate (dateChars date ++ rest) = some (date, rest) := by
  have hyear : date.year < 10 ^ 4 := date.year_lt
  have hmonth : date.month < 10 ^ 2 := by have := date.month_mem; omega
  have hday : date.day < 10 ^ 2 := date.day_lt
  simp only [readDate, dateChars, List.append_assoc, List.cons_append, readDigits_of_lt hyear,
    readDigits_of_lt hmonth, readDigits_of_lt hday, readMark_cons (List.mem_singleton_self _),
    date.of?_self, bind, Option.bind]
  rfl

theorem readClock_clockChars {second : Nat} (h : second < 86400) (rest : List Char) :
    readClock (clockChars second ++ 'Z' :: rest) = some (second, 'Z' :: rest) := by
  have hhour : second / 3600 < 10 ^ 2 := by omega
  have hminute : second / 60 % 60 < 10 ^ 2 := by omega
  have hrest : second % 60 < 10 ^ 2 := by omega
  have hsum : (second / 3600 * 60 + second / 60 % 60) * 60 + min (second % 60) 59 =
      second := by omega
  have hbounds : second / 3600 < 24 ∧ second / 60 % 60 < 60 := by omega
  have hle : second % 60 ≤ 60 := by omega
  simp only [readClock, readMinutes, clockChars, List.append_assoc, List.cons_append,
    readDigits_of_lt hhour, readDigits_of_lt hminute, readDigits_of_lt hrest,
    readMark_cons (List.mem_singleton_self _), readFraction, bind, Option.bind, hsum, hbounds, hle,
    and_self, if_true]
  rfl

theorem ofLocal?_zero (moment : Moment) : ofLocal? moment.date moment.second 0 = some moment := by
  obtain ⟨date, second, hsecond⟩ := moment
  have hnonneg : ¬ ((second : Int) - 0 < 0) := by omega
  have hlt : (second : Int) - 0 < 86400 := by omega
  rw [ofLocal?, if_neg hnonneg, if_pos hlt, Option.map_some, Option.some_inj, mk.injEq]
  refine ⟨rfl, ?_⟩
  change (((second : Int) - 0) % 86400).toNat = second
  omega

theorem read?_text (moment : Moment) : read? moment.text = some moment := by
  have hoffset : readOffset ['Z'] = some (0, []) := rfl
  simp only [read?, text, String.toList_ofList, bind, Option.bind, readDate_dateChars,
    readMark_cons (show 'T' ∈ ['T', 't', ' '] by decide),
    readClock_clockChars moment.second_lt, hoffset, if_true, ofLocal?_zero]

theorem text_injective : Function.Injective text := by
  intro left right h
  have hread := congrArg read? h
  rw [read?_text, read?_text] at hread
  exact Option.some.inj hread

end Moment

end ClusterKeeper
