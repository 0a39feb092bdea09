import ClusterKeeper.Store.Memory
import ClusterKeeper.Proofs.Program.Trace

/-!
Where a program ends that runs among others. The surroundings say what may happen to the store between
two calls of the program, and what its identity source may answer.
-/

namespace ClusterKeeper

structure Surroundings where
  rely : Memory → Memory → Prop
  answers : Except IdentityError Identity → Prop

namespace Program

variable {α β : Type} {env : Surroundings} {t : Trace} {m m' : Memory}

/-- The program ends in `post`, whatever happens between its calls. -/
def Meets (env : Surroundings) : Program α → (α → Trace → Memory → Prop) → Trace → Memory → Prop
  | .done value, post, t, m => post value t m
  | .call c next, post, t, m =>
    ∀ m', env.rely m m' → (next (Memory.perform c m').1).Meets env post
      (.called c (Memory.perform c m').1 :: t) (Memory.perform c m').2
  | .generate next, post, t, m =>
    ∀ answer, env.answers answer → (next answer).Meets env post (.drew answer :: t) m
  | .emit event next, post, t, m => next.Meets env post (.reported event :: t) m

theorem Meets.mono {p : Program α} {post post' : α → Trace → Memory → Prop}
    (h : p.Meets env post t m) (hpost : ∀ value t m, post value t m → post' value t m) :
    p.Meets env post' t m := by
  induction p generalizing t m with
  | done value => exact hpost _ _ _ h
  | call c next ih => exact fun m' hrely => ih _ (h m' hrely)
  | generate next ih => exact fun answer hanswer => ih _ (h answer hanswer)
  | emit event next ih => exact ih h

/-- A program in two parts ends where the second does, begun wherever the first ends. -/
theorem meets_bind (p : Program α) (f : α → Program β) (post : β → Trace → Memory → Prop) :
    (p.bind f).Meets env post t m ↔ p.Meets env (fun value => (f value).Meets env post) t m := by
  induction p generalizing t m with
  | done value => exact Iff.rfl
  | call c next ih =>
      simp only [bind, Meets, ih]
  | generate next ih =>
      simp only [bind, Meets, ih]
  | emit event next ih =>
      simp only [bind, Meets, ih]

theorem Meets.bind {p : Program α} {f : α → Program β} {post : α → Trace → Memory → Prop}
    {post' : β → Trace → Memory → Prop} (hp : p.Meets env post t m)
    (hf : ∀ value t m, post value t m → (f value).Meets env post' t m) :
    (p >>= f).Meets env post' t m :=
  (meets_bind p f post').mpr (hp.mono hf)

section Calls

variable {post : β → Trace → Memory → Prop} {object : Resource} {key : ObjectKey}

theorem meets_get {f : Except StoreError (Option Resource) → Program β}
    (h : ∀ m', env.rely m m' →
      (f (m'.get key)).Meets env post (.called (.get key) (m'.get key) :: t) m') :
    (get key >>= f).Meets env post t m := h

theorem meets_create {f : Except StoreError Resource → Program β}
    (h : ∀ m', env.rely m m' → ∀ reply m'', m'.create object = (reply, m'') →
      (f reply).Meets env post (.called (.create object) reply :: t) m'') :
    (create object >>= f).Meets env post t m :=
  fun m' hrely => h m' hrely _ _ rfl

theorem meets_patch {patch : Json} {f : Except StoreError Resource → Program β}
    (h : ∀ m', env.rely m m' → ∀ reply m'', m'.patch key patch = (reply, m'') →
      (f reply).Meets env post (.called (.patch key patch) reply :: t) m'') :
    (Program.patch key patch >>= f).Meets env post t m :=
  fun m' hrely => h m' hrely _ _ rfl

theorem meets_update {f : Except StoreError Resource → Program β}
    (h : ∀ m', env.rely m m' → ∀ reply m'', m'.update object = (reply, m'') →
      (f reply).Meets env post (.called (.update object) reply :: t) m'') :
    (update object >>= f).Meets env post t m :=
  fun m' hrely => h m' hrely _ _ rfl

end Calls

end Program

structure Session where
  memory : Memory
  trace : Trace

namespace Session

/-- A program that has the store to itself. The identity source may answer by all that was done so
far, and before a call the failures in force are those that `faults` gives for it. -/
def handler (source : Trace → Except IdentityError Identity) (faults : Trace → List Failure) :
    Handler Session where
  perform := fun call s =>
    let answered := Memory.perform call { s.memory with failures := faults s.trace }
    (answered.1, { memory := answered.2, trace := .called call answered.1 :: s.trace })
  generate := fun s => (source s.trace, { s with trace := .drew (source s.trace) :: s.trace })
  emit := fun event s => { s with trace := .reported event :: s.trace }

end Session

theorem Program.Meets.run {α : Type} {env : Surroundings} {p : Program α}
    {post : α → Trace → Memory → Prop} (source : Trace → Except IdentityError Identity)
    (faults : Trace → List Failure) (s : Session) (h : p.Meets env post s.trace s.memory)
    (hrely : ∀ t m, env.rely m { m with failures := faults t })
    (hanswers : ∀ t, env.answers (source t)) :
    post (p.run (Session.handler source faults) s).1
      (p.run (Session.handler source faults) s).2.trace
      (p.run (Session.handler source faults) s).2.memory := by
  induction p generalizing s with
  | done value => exact h
  | call c next ih => exact ih _ _ (h _ (hrely s.trace s.memory))
  | generate next ih => exact ih _ _ (h _ (hanswers s.trace))
  | emit event next ih => exact ih _ h

end ClusterKeeper
