import ClusterKeeper.Reconcile.Program

/-!
What a program does, whatever it is answered. The trace holds all that it did so far, and a rule says
which calls it may make after a trace; a program that follows the rule does so on any store, among any
others.
-/

namespace ClusterKeeper

inductive Act where
  | called (call : StoreCall) (reply : call.Reply)
  | drew (answer : Except IdentityError Identity)
  | reported (event : Event)

/-- What a program did so far, the latest first. -/
abbrev Trace := List Act

def Trace.reports : Trace → List Event :=
  List.filterMap fun
    | .reported event => some event
    | _ => none

namespace Program

variable {α β : Type} {rule : Trace → StoreCall → Prop} {t : Trace}

/-- All calls of the program are by the rule, and it ends in `post`. -/
def Follows (rule : Trace → StoreCall → Prop) : Program α → (α → Trace → Prop) → Trace → Prop
  | .done value, post, t => post value t
  | .call c next, post, t =>
    rule t c ∧ ∀ reply, (next reply).Follows rule post (.called c reply :: t)
  | .generate next, post, t => ∀ answer, (next answer).Follows rule post (.drew answer :: t)
  | .emit event next, post, t => next.Follows rule post (.reported event :: t)

theorem Follows.mono {p : Program α} {post post' : α → Trace → Prop} (h : p.Follows rule post t)
    (hpost : ∀ value t', t ⊆ t' → post value t' → post' value t') : p.Follows rule post' t := by
  induction p generalizing t with
  | done value => exact hpost value t (List.Subset.refl t) h
  | call c next ih =>
      refine ⟨h.1, fun reply => ih reply (h.2 reply) fun value t' hsub => ?_⟩
      exact hpost value t' (List.subset_of_cons_subset hsub)
  | generate next ih =>
      intro answer
      exact ih answer (h answer) fun value t' hsub => hpost value t' (List.subset_of_cons_subset hsub)
  | emit event next ih =>
      exact ih h fun value t' hsub => hpost value t' (List.subset_of_cons_subset hsub)

theorem follows_bind (p : Program α) (f : α → Program β) (post : β → Trace → Prop) :
    (p.bind f).Follows rule post t ↔ p.Follows rule (fun value => (f value).Follows rule post) t := by
  induction p generalizing t with
  | done value => exact Iff.rfl
  | call c next ih =>
      simp only [bind, Follows, ih]
  | generate next ih =>
      simp only [bind, Follows, ih]
  | emit event next ih =>
      simp only [bind, Follows, ih]

theorem Follows.bind {p : Program α} {f : α → Program β} {post : α → Trace → Prop}
    {post' : β → Trace → Prop} (hp : p.Follows rule post t)
    (hf : ∀ value t', t ⊆ t' → post value t' → (f value).Follows rule post' t') :
    (p >>= f).Follows rule post' t :=
  (follows_bind p f post').mpr (hp.mono hf)

end Program

end ClusterKeeper
