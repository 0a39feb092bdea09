import ClusterKeeper.Text
import Mathlib.Data.List.DropRight
import Mathlib.Data.List.Infix

/-!
Trimming is done once it is done. Filling in a template, in terms of characters, and where a pattern
can occur in a text.
-/

namespace ClusterKeeper.Text

/-! ### Trimming -/

theorem trimChars_eq_self {text : List Char} (h : ∀ c ∈ text, isBlank c = false) :
    trimChars text = text := by
  have hdrop : ∀ l : List Char, (∀ c ∈ l, isBlank c = false) → l.dropWhile isBlank = l := by
    intro l hl
    cases l with
    | nil => rfl
    | cons c rest => rw [List.dropWhile_cons, hl c List.mem_cons_self, if_neg Bool.false_ne_true]
  rw [trimChars, hdrop text h, hdrop text.reverse fun c hc => h c (List.mem_reverse.mp hc),
    List.reverse_reverse]

theorem trimChars_eq_rdropWhile (text : List Char) :
    trimChars text = (text.dropWhile isBlank).rdropWhile isBlank := rfl

theorem trimChars_trimChars (text : List Char) : trimChars (trimChars text) = trimChars text := by
  have hfront : (trimChars text).dropWhile isBlank = trimChars text := by
    rw [List.dropWhile_eq_self_iff]
    intro hlength
    -- the text begins as the text without the blanks at its front does
    have hbegins : trimChars text <+: text.dropWhile isBlank := List.rdropWhile_prefix _ _
    rw [hbegins.getElem hlength]
    exact List.dropWhile_eq_self_iff.mp (List.dropWhile_idempotent _ _) _
  rw [trimChars_eq_rdropWhile (trimChars text), hfront, trimChars_eq_rdropWhile,
    List.rdropWhile_idempotent]

theorem toList_trim (text : String) : (trim text).toList = trimChars text.toList :=
  String.toList_ofList

/-! ### Templates -/

def placeMark : List Char := ['\x7b', '\x7b']

def fillChars (template : List Char) (values : List (String × String)) : List Char :=
  values.foldl (fun text entry => replaceChars (place entry.1).toList entry.2.toList text) template

theorem toList_fill (template : String) (values : List (String × String)) :
    (fill template values).toList = fillChars template.toList values := by
  induction values generalizing template with
  | nil => rfl
  | cons entry rest ih =>
      have hstep := ih (replace template (place entry.1) entry.2)
      rw [replace, String.toList_ofList] at hstep
      exact hstep

theorem fill_append_singleton (template : String) (values : List (String × String))
    (name value : String) :
    fill template (values ++ [(name, value)]) =
      replace (fill template values) (place name) value := by
  rw [fill, List.foldl_append]
  rfl

/-- A character that a pattern does not have stands between the occurrences of the pattern. -/
theorem infix_append_cons_iff {pattern left right : List Char} {c : Char} (h : c ∉ pattern) :
    pattern <:+: left ++ c :: right ↔ pattern <:+: left ∨ pattern <:+: right := by
  constructor
  · rintro ⟨s, t, heq⟩
    rw [List.append_assoc] at heq
    rcases List.append_eq_append_iff.mp heq with ⟨left', rfl, hright⟩ | ⟨rest, rfl, hrest⟩
    · rcases List.append_eq_append_iff.mp hright with ⟨left'', rfl, -⟩ | ⟨rest, rfl, hrest⟩
      · exact .inl ⟨s, left'', by rw [List.append_assoc]⟩
      · cases rest with
        | nil => exact .inl ⟨s, [], by rw [List.append_nil, List.append_nil]⟩
        | cons d rest =>
            cases hrest
            exact absurd (List.mem_append_right _ List.mem_cons_self) h
    · cases rest with
      | nil =>
          cases pattern with
          | nil => exact .inl List.nil_infix
          | cons d pattern =>
              cases hrest
              exact absurd List.mem_cons_self h
      | cons d rest =>
          cases hrest
          exact .inr ⟨rest, t, List.append_assoc rest pattern t⟩
  · rintro (⟨s, t, rfl⟩ | ⟨s, t, rfl⟩)
    · exact ⟨s, t ++ c :: right, by simp only [List.append_assoc]⟩
    · exact ⟨left ++ c :: s, t, by simp only [List.append_assoc, List.cons_append]⟩

end ClusterKeeper.Text
