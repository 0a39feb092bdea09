import Mathlib.Logic.Relation
import ClusterKeeper.Reconcile.Engine

/-!
Programs that share a state and move one at a time, in any order. Turns by a schedule are such moves,
so what all moves keep holds of every schedule.
-/

namespace ClusterKeeper

variable {α σ : Type} {h : Handler σ}

inductive Program.Move (h : Handler σ) : Program α → σ → Program α → σ → Prop where
  | call (c : StoreCall) (next : c.Reply → Program α) (s : σ) :
      Move h (.call c next) s (next (h.perform c s).1) (h.perform c s).2
  | generate (next : Except IdentityError Identity → Program α) (s : σ) :
      Move h (.generate next) s (next (h.generate s).1) (h.generate s).2
  | emit (event : Event) (next : Program α) (s : σ) :
      Move h (.emit event next) s next (h.emit event s)

structure Concurrent (α σ : Type) where
  programs : List (Program α)
  state : σ

namespace Concurrent

inductive Move (h : Handler σ) : Concurrent α σ → Concurrent α σ → Prop where
  | of {p p' : Program α} {s s' : σ} (before after : List (Program α)) (hmove : p.Move h s p' s') :
      Move h ⟨before ++ p :: after, s⟩ ⟨before ++ p' :: after, s'⟩

/-- The programs move, any number of times. -/
abbrev Moves (h : Handler σ) : Concurrent α σ → Concurrent α σ → Prop :=
  Relation.ReflTransGen (Move h)

end Concurrent

/-- In a list one entry is replaced, and what holds of the others is kept. -/
theorem forall_mem_replaced {β : Type} {p q : β → Prop} {first last : List β} {old new : β}
    (h : ∀ x ∈ first ++ old :: last, p x) (hkept : ∀ x, p x → q x) (hnew : q new) :
    ∀ x ∈ first ++ new :: last, q x := by
  rw [List.forall_mem_append, List.forall_mem_cons] at h ⊢
  exact ⟨fun x hx => hkept x (h.1 x hx), hnew, fun x hx => hkept x (h.2.2 x hx)⟩

def Task.rest : Task α → Program α
  | .ready program => program
  | .waiting call next => .call call next
  | .finished value => .done value

variable (before after : List (Program α)) (s : σ)

/-- A program moves to where it ends, whatever else is there. -/
theorem Program.moves_run (p : Program α) :
    Concurrent.Moves h ⟨before ++ p :: after, s⟩
      ⟨before ++ .done (p.run h s).1 :: after, (p.run h s).2⟩ := by
  induction p generalizing s with
  | done value => exact .refl
  | call c next ih => exact .head (.of before after (.call c next s)) (ih _ _)
  | generate next ih => exact .head (.of before after (.generate next s)) (ih _ _)
  | emit event next ih => exact .head (.of before after (.emit event next s)) (ih _)

theorem Program.moves_toCall (p : Program α) :
    Concurrent.Moves h ⟨before ++ p :: after, s⟩
      ⟨before ++ (p.toCall h s).1.rest :: after, (p.toCall h s).2⟩ := by
  induction p generalizing s with
  | done value => exact .refl
  | call c next ih => exact .refl
  | generate next ih => exact .head (.of before after (.generate next s)) (ih _ _)
  | emit event next ih => exact .head (.of before after (.emit event next s)) (ih _)

namespace Task

theorem moves_turn (task : Task α) :
    Concurrent.Moves h ⟨before ++ task.rest :: after, s⟩
      ⟨before ++ (task.turn h s).1.rest :: after, (task.turn h s).2⟩ := by
  cases task with
  | ready p => exact p.moves_toCall before after s
  | waiting c next =>
      exact .head (.of before after (.call c next s))
        ((next (h.perform c s).1).moves_toCall before after (h.perform c s).2)
  | finished value => exact .refl

theorem moves_finish (task : Task α) :
    Concurrent.Moves h ⟨before ++ task.rest :: after, s⟩
      ⟨before ++ .done (task.finish h s).1 :: after, (task.finish h s).2⟩ := by
  cases task with
  | ready p => exact p.moves_run before after s
  | waiting c next => exact (Program.call c next).moves_run before after s
  | finished value => exact .refl

theorem moves_turns (schedule : List Nat) (tasks : List (Task α)) :
    Concurrent.Moves h ⟨tasks.map rest, s⟩
      ⟨(turns h schedule tasks s).1.map rest, (turns h schedule tasks s).2⟩ := by
  induction schedule generalizing tasks s with
  | nil => exact .refl
  | cons i schedule ih =>
      rw [turns]
      cases htask : tasks[i]? with
      | none => exact ih s tasks
      | some task =>
          obtain ⟨hi, rfl⟩ := List.getElem?_eq_some_iff.mp htask
          have hturn := tasks[i].moves_turn (h := h) ((tasks.take i).map rest)
            ((tasks.drop (i + 1)).map rest) s
          have hbefore : (tasks.take i).map rest ++ tasks[i].rest :: (tasks.drop (i + 1)).map rest =
              tasks.map rest := by
            rw [← List.map_cons, ← List.map_append, List.getElem_cons_drop, List.take_append_drop]
          have hafter : (tasks.take i).map rest ++
              (tasks[i].turn h s).1.rest :: (tasks.drop (i + 1)).map rest =
                (tasks.set i (tasks[i].turn h s).1).map rest := by
            rw [List.set_eq_take_append_cons_drop, if_pos hi, List.map_append, List.map_cons]
          rw [hbefore, hafter] at hturn
          exact hturn.trans (ih _ _)

theorem moves_finishAll (tasks : List (Task α)) :
    Concurrent.Moves h ⟨before ++ tasks.map rest, s⟩
      ⟨before ++ (finishAll h tasks s).1.map .done, (finishAll h tasks s).2⟩ := by
  induction tasks generalizing before s with
  | nil => exact .refl
  | cons task tasks ih =>
      have hfirst := task.moves_finish (h := h) before (tasks.map rest) s
      have hrest := ih (before ++ [.done (task.finish h s).1]) (task.finish h s).2
      rw [List.append_assoc, List.append_assoc] at hrest
      exact hfirst.trans hrest

/-- Programs that take turns by a schedule, and then end, have moved so. -/
theorem moves_interleave (programs : List (Program α)) (schedule : List Nat) :
    Concurrent.Moves h ⟨programs, s⟩
      ⟨(interleave h programs schedule s).1.map .done, (interleave h programs schedule s).2⟩ := by
  have hready : (programs.map Task.ready).map rest = programs := by
    simp [rest, Function.comp_def]
  have hturns := moves_turns (h := h) s schedule (programs.map .ready)
  rw [hready] at hturns
  exact hturns.trans (moves_finishAll [] _ _)

end Task

namespace Concurrent

theorem Moves.length_eq {running running' : Concurrent α σ} (hmoves : Moves h running running') :
    running'.programs.length = running.programs.length := by
  induction hmoves with
  | refl => rfl
  | tail _ hmove ih =>
      cases hmove with
      | of before after _ => simpa using ih

end Concurrent

end ClusterKeeper
