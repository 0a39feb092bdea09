import ClusterKeeper.Identity.Basic
import ClusterKeeper.Reconcile.Event
import ClusterKeeper.Store.Call

/-!
Programs over a store: trees whose nodes are store calls, requests for an identity and reports. One
program runs against a store in memory, against replies over the network, or a call at a time among
others.
-/

namespace ClusterKeeper

inductive Program (α : Type) where
  | done (value : α)
  | call (call : StoreCall) (next : call.Reply → Program α)
  /-- Asks the identity source. -/
  | generate (next : Except IdentityError Identity → Program α)
  | emit (event : Event) (next : Program α)

namespace Program

def bind {α β : Type} : Program α → (α → Program β) → Program β
  | .done value, f => f value
  | .call c next, f => .call c fun reply => (next reply).bind f
  | .generate next, f => .generate fun identity => (next identity).bind f
  | .emit event next, f => .emit event (next.bind f)

instance : Monad Program where
  pure := .done
  bind := bind

theorem bind_done {α : Type} (p : Program α) : p.bind .done = p := by
  induction p with
  | done value => rfl
  | call c next ih => simp [bind, ih]
  | generate next ih => simp [bind, ih]
  | emit event next ih => simp [bind, ih]

theorem bind_assoc {α β γ : Type} (p : Program α) (f : α → Program β) (g : β → Program γ) :
    (p.bind f).bind g = p.bind fun value => (f value).bind g := by
  induction p with
  | done value => rfl
  | call c next ih => simp [bind, ih]
  | generate next ih => simp [bind, ih]
  | emit event next ih => simp [bind, ih]

def get (key : ObjectKey) : Program (Except StoreError (Option Resource)) := .call (.get key) .done

def create (object : Resource) : Program (Except StoreError Resource) :=
  .call (.create object) .done

def patch (key : ObjectKey) (patch : Json) : Program (Except StoreError Resource) :=
  .call (.patch key patch) .done

def update (object : Resource) : Program (Except StoreError Resource) :=
  .call (.update object) .done

def newIdentity : Program (Except IdentityError Identity) := .generate .done

def warn (warning : Warning) : Program Unit := .emit (.warned warning) (.done ())

def record (record : Record) : Program Unit := .emit (.recorded record) (.done ())

end Program

/-- What programs run against: how calls, requests and reports change a state `σ`. -/
structure Handler (σ : Type) where
  perform : (call : StoreCall) → σ → call.Reply × σ
  generate : σ → Except IdentityError Identity × σ
  emit : Event → σ → σ

namespace Program

variable {α σ : Type}

def run (h : Handler σ) : Program α → σ → α × σ
  | .done value, s => (value, s)
  | .call c next, s =>
    let (reply, s) := h.perform c s
    (next reply).run h s
  | .generate next, s =>
    let (identity, s) := h.generate s
    (next identity).run h s
  | .emit event next, s => next.run h (h.emit event s)

theorem run_bind {β : Type} (h : Handler σ) (p : Program α) (f : α → Program β) (s : σ) :
    (p.bind f).run h s = (f (p.run h s).1).run h (p.run h s).2 := by
  induction p generalizing s with
  | done value => rfl
  | call c next ih => exact ih _ _
  | generate next ih => exact ih _ _
  | emit event next ih => exact ih _

end Program

end ClusterKeeper
