import ClusterKeeper.Proofs.Program.Contract

/-!
What the trace of a run tells: the changes that the program asked for, what its identity source
answered, and how the store came about from the one that the program began with.
-/

namespace ClusterKeeper

namespace Trace

/-- The calls that ask for a change, the latest first. -/
def writes : Trace → List StoreCall :=
  List.filterMap fun
    | .called (.get _) _ => none
    | .called call _ => some call
    | _ => none

/-- What the identity source answered, the latest first. -/
def draws : Trace → List (Except IdentityError Identity) :=
  List.filterMap fun
    | .drew answer => some answer
    | _ => none

section

variable (events : List Event) (t t' : Trace)

@[simp] theorem writes_nil : writes [] = [] := rfl

@[simp] theorem writes_get (key : ObjectKey) (reply : Except StoreError (Option Resource)) :
    writes (.called (.get key) reply :: t) = t.writes := rfl

@[simp] theorem writes_update (object : Resource) (reply : Except StoreError Resource) :
    writes (.called (.update object) reply :: t) = .update object :: t.writes := rfl

@[simp] theorem writes_drew (answer : Except IdentityError Identity) :
    writes (.drew answer :: t) = t.writes := rfl

@[simp] theorem draws_nil : draws [] = [] := rfl

@[simp] theorem draws_get (key : ObjectKey) (reply : Except StoreError (Option Resource)) :
    draws (.called (.get key) reply :: t) = t.draws := rfl

@[simp] theorem draws_update (object : Resource) (reply : Except StoreError Resource) :
    draws (.called (.update object) reply :: t) = t.draws := rfl

@[simp] theorem draws_drew (answer : Except IdentityError Identity) :
    draws (.drew answer :: t) = answer :: t.draws := rfl

@[simp] theorem writes_append : writes (t ++ t') = t.writes ++ t'.writes := List.filterMap_append

@[simp] theorem draws_append : draws (t ++ t') = t.draws ++ t'.draws := List.filterMap_append

@[simp] theorem writes_reported : writes (events.map .reported) = [] := by
  induction events with
  | nil => rfl
  | cons event rest ih => exact ih

@[simp] theorem draws_reported : draws (events.map .reported) = [] := by
  induction events with
  | nil => rfl
  | cons event rest ih => exact ih

end

/-- From the one store, by what the trace tells, to the other. -/
def Leads (source : Trace → Except IdentityError Identity) (faults : Trace → List Failure)
    (m : Memory) : Trace → Memory → Prop
  | [], m' => m' = m
  | .called call reply :: t, m' => ∃ before, Leads source faults m t before ∧
      Memory.perform call { before with failures := faults t } = (reply, m')
  | .drew answer :: t, m' => answer = source t ∧ Leads source faults m t m'
  | .reported _ :: t, m' => Leads source faults m t m'

section

variable {source : Trace → Except IdentityError Identity} {faults : Trace → List Failure}
  {m m' : Memory}

/-- What does not write leaves the objects, and all else but the failures in force. -/
theorem Leads.exists_of_append {front back : Trace} (h : Leads source faults m (front ++ back) m') :
    ∃ before, Leads source faults m back before ∧
      (front.writes = [] → m'.clearFailures = before.clearFailures) := by
  induction front generalizing m' with
  | nil => exact ⟨m', h, fun _ => rfl⟩
  | cons act front ih =>
      cases act with
      | reported event => exact ih h
      | drew answer => exact ih h.2
      | called call reply =>
          obtain ⟨between, hleads, hperform⟩ := h
          obtain ⟨before, hback, hsame⟩ := ih hleads
          refine ⟨before, hback, fun hwrites => ?_⟩
          cases call with
          -- a read puts other failures in force, and does nothing else to the store
          | get key =>
              obtain ⟨-, rfl⟩ := Prod.mk.inj hperform
              exact hsame hwrites
          | create object => cases hwrites
          | patch key patch => cases hwrites
          | update object => cases hwrites

/-- What was drawn is what the source answered. -/
theorem Leads.exists_answer {front middle back : Trace} {answer : Except IdentityError Identity}
    (h : Leads source faults m ((front ++ .drew answer :: middle) ++ back) m') :
    ∃ t, answer = source t := by
  rw [List.append_assoc] at h
  obtain ⟨before, hback, -⟩ := h.exists_of_append
  exact ⟨middle ++ back, hback.1⟩

end

end Trace

namespace Session

def read (faults : Trace → List Failure) (s : Session) (key : ObjectKey) :
    Except StoreError (Option Resource) :=
  ({ s.memory with failures := faults s.trace } : Memory).get key

end Session

namespace Program

variable {α β : Type} {source : Trace → Except IdentityError Identity}
  {faults : Trace → List Failure}

theorem leads_run {m : Memory} (p : Program α) (s : Session)
    (h : s.trace.Leads source faults m s.memory) :
    (p.run (Session.handler source faults) s).2.trace.Leads source faults m
      (p.run (Session.handler source faults) s).2.memory := by
  induction p generalizing s with
  | done value => exact h
  | call c next ih => exact ih _ _ ⟨s.memory, h, rfl⟩
  | generate next ih => exact ih _ _ ⟨rfl, h⟩
  | emit event next ih => exact ih _ h

/-- Whatever a program comes to under all replies, it comes to in a run. -/
theorem Follows.run {p : Program α} {rule : Trace → StoreCall → Prop} {post : α → Trace → Prop}
    {s : Session} (h : p.Follows rule post s.trace) :
    post (p.run (Session.handler source faults) s).1
      (p.run (Session.handler source faults) s).2.trace := by
  induction p generalizing s with
  | done value => exact h
  | call c next ih => exact ih _ (s := ((Session.handler source faults).perform c s).2) (h.2 _)
  | generate next ih => exact ih _ (s := ((Session.handler source faults).generate s).2) (h _)
  | emit event next ih => exact ih (s := (Session.handler source faults).emit event s) h

def NeverDraws : Program α → Prop
  | .done _ => True
  | .call _ next => ∀ reply, (next reply).NeverDraws
  | .generate _ => False
  | .emit _ next => next.NeverDraws

theorem NeverDraws.bind {p : Program α} {f : α → Program β} (hp : p.NeverDraws)
    (hf : ∀ value, (f value).NeverDraws) : (p >>= f).NeverDraws := by
  change (p.bind f).NeverDraws
  induction p with
  | done value => exact hf value
  | call c next ih => exact fun reply => ih reply (hp reply)
  | generate next => exact hp.elim
  | emit event next ih => exact ih hp

theorem NeverDraws.follows {p : Program α} {t : Trace} (h : p.NeverDraws) :
    p.Follows (fun _ _ => True)
      (fun _ t' => ∃ later : Trace, t' = later ++ t ∧ later.draws = []) t := by
  have hlonger {act : Act} (hact : Trace.draws [act] = []) {t t' : Trace}
      (h : ∃ later : Trace, t' = later ++ act :: t ∧ later.draws = []) :
      ∃ later : Trace, t' = later ++ t ∧ later.draws = [] := by
    obtain ⟨later, rfl, hdraws⟩ := h
    refine ⟨later ++ [act], by rw [List.append_assoc, List.singleton_append], ?_⟩
    rw [Trace.draws_append, hdraws, hact, List.append_nil]
  induction p generalizing t with
  | done value => exact ⟨[], rfl, rfl⟩
  | call c next ih =>
      exact ⟨trivial, fun reply => (ih reply (h reply)).mono fun _ _ _ => hlonger rfl⟩
  | generate next => exact h.elim
  | emit event next ih => exact (ih h).mono fun _ _ _ => hlonger rfl

end Program

end ClusterKeeper
