import ClusterKeeper.Proofs.Program.Moves
import ClusterKeeper.Proofs.Reconcile.Drift

/-!
Applications of the same child that take turns. There is no lock: one may send a patch that it chose
by what was there before another one patched. It goes well since the patch is the whole child, so that
sending it again alters nothing.
-/

namespace ClusterKeeper

open Memory

def Memory.NoFailures (m : Memory) (kind : Kind) : Prop := ∀ op, m.failure? op kind = none

/-- A document that decodes as its kind, of an object that is not being deleted. -/
structure Json.IsLive (raw : Json) (kind : Kind) : Prop where
  canonical : raw.isCanonical = true
  readable : ∃ object, readAs kind raw = .ok object
  unmarked : raw.IsUnmarked

theorem Json.IsLive.exists_written {raw : Json} {kind : Kind} (h : raw.IsLive kind) :
    kind.schema.Readable raw := by
  obtain ⟨object, hread⟩ := h.readable
  exact ⟨_, (readAs_eq_ok_iff.mp hread).2⟩

/-- The handler serves the calls on a store in memory. Between two calls other things may happen there,
but not to the object of the key, nor do operations on its kind begin to fail. -/
def Handler.Serves {σ : Type} (h : Handler σ) (memory : σ → Memory) (key : ObjectKey) : Prop :=
  ∀ c s, (memory s).NoFailures key.kind →
    ∃ m, m.get? key = (memory s).get? key ∧ m.NoFailures key.kind ∧
    (h.perform c s).1 = (Memory.perform c m).1 ∧ memory (h.perform c s).2 = (Memory.perform c m).2

theorem Engine.serves (key : ObjectKey) : Engine.handler.Serves Engine.memory key :=
  fun _ e hnofail => ⟨e.memory, rfl, hnofail, rfl, rfl⟩

theorem Program.Move.of_call {α σ : Type} {h : Handler σ} {c : StoreCall}
    {next : c.Reply → Program α} {p' : Program α} {s s' : σ}
    (hmove : (Program.call c next).Move h s p' s') :
    p' = next (h.perform c s).1 ∧ s' = (h.perform c s).2 := by
  cases hmove
  exact ⟨rfl, rfl⟩

namespace Contention

variable {key : ObjectKey} {r : Resource} {start found found' : Option Json}
  {m : Memory}

/-- The object has all that is wanted of it, and is what a single application makes of it. -/
structure Settled (key : ObjectKey) (r : Resource) (start : Option Json) (raw : Json) : Prop where
  live : raw.IsLive key.kind
  satisfied : raw.satisfies r.body = true
  same : raw.unstamped = r.applied start

/-- What is found under the key while applications take turns, where `start` was at first. -/
inductive StartOrSettled (key : ObjectKey) (r : Resource) (start : Option Json) :
    Option Json → Prop where
  | untouched : StartOrSettled key r start start
  | settled {raw : Json} (hraw : Settled key r start raw) : StartOrSettled key r start (some raw)

def sendPatch (key : ObjectKey) (r : Resource) : Program (Except StoreError ApplyOutcome) := do
  match ← Program.patch key r.mergePatch with
  | .error e => pure (.error e)
  | .ok _ => pure (.ok .patched)

def patchExisting (key : ObjectKey) (r : Resource) : Program (Except StoreError ApplyOutcome) := do
  match ← Program.get key with
  | .error e => pure (.error e)
  | .ok none => pure (.error (.notFound key.ref))
  | .ok (some live) =>
    if live.body.patchChanges r.mergePatch then sendPatch key r else pure (.ok .unchanged)

theorem createOrPatch_of_key (hkey : r.key = .ok key) :
    createOrPatch r = (do
      match ← Program.create r with
      | .ok _ => pure (.ok .created)
      | .error (.alreadyExists _) => patchExisting key r
      | .error e => pure (.error e)) := by
  rw [createOrPatch, hkey]
  rfl

/-- How far an application is that runs without failures, with what is found under its key. -/
inductive Stage (key : ObjectKey) (r : Resource) (start found : Option Json) :
    Program (Except StoreError ApplyOutcome) → Prop where
  | begun : Stage key r start found (createOrPatch r)
  | refused (hpresent : found.isSome) : Stage key r start found (patchExisting key r)
  /-- It saw the object as it was at first, and will change it. -/
  | patching {raw : Json} (hstart : start = some raw)
      (hchanges : r.applied start = (raw.merge r.mergePatch).unstamped) :
      Stage key r start found (sendPatch key r)
  | ended {outcome : ApplyOutcome} (hreached : found.map Json.unstamped = some (r.applied start)) :
      Stage key r start found (.done (.ok outcome))

/-- What a call may do to the object: nothing, or it settles it. -/
def Advances (key : ObjectKey) (r : Resource) (start found found' : Option Json) : Prop :=
  found' = found ∨ ∃ raw, found' = some raw ∧ Settled key r start raw

/-- What others do sets no application back. -/
theorem Stage.stable {p : Program (Except StoreError ApplyOutcome)}
    (hstage : Stage key r start found p) (hadvances : Advances key r start found found') :
    Stage key r start found' p := by
  rcases hadvances with rfl | ⟨raw, rfl, hraw⟩
  · exact hstage
  · cases hstage with
    | begun => exact .begun
    | refused => exact .refused rfl
    | patching hstart hchanges => exact .patching hstart hchanges
    | ended => exact .ended (congrArg some hraw.same)

/-! ### Calls -/

theorem settled_createdDocument (hr : r.IsDesired key) (m : Memory) :
    Settled key r none (m.createdDocument r) := by
  have hsound := hr.isSound_createdDocument m
  have hcarries := hr.carries_createdDocument m
  exact ⟨⟨hsound.canonical, hsound.exists_read, hcarries.unmarked⟩, hcarries.satisfies,
    unstamped_createdDocument m r⟩

theorem settled_patchedDocument {live : Json} (hr : r.IsDesired key) (m : Memory)
    (hlive : live.IsLive key.kind)
    (hsame : (live.merge r.mergePatch).unstamped = r.applied start) :
    Settled key r start (m.patchedDocument live r.mergePatch) := by
  have hcarries := hr.carries_patchedDocument m hlive.unmarked
  obtain ⟨written, hread⟩ := hr.readable_patchedDocument m hlive.canonical hlive.exists_written
  refine ⟨⟨hr.isCanonical_patchedDocument m hlive.canonical, ?_, hcarries.unmarked⟩,
    hcarries.satisfies, (unstamped_patchedDocument m live _).trans hsame⟩
  exact ⟨⟨key.kind, written⟩, readAs_eq_ok_iff.mpr ⟨rfl, hread⟩⟩

theorem noFailures_of_failures {m m' : Memory} {kind : Kind} (hnofail : m.NoFailures kind)
    (h : m'.failures = m.failures) : m'.NoFailures kind := by
  intro op
  rw [failure?, h]
  exact hnofail op

/-- A creation settles the object if there is none, and is refused otherwise. -/
theorem create_startOrSettled (hr : r.IsDesired key) (hnofail : m.NoFailures key.kind)
    (hsofar : StartOrSettled key r start (m.get? key)) :
    (∃ created raw, (m.create r).1 = .ok created ∧ m.get? key = none ∧ start = none ∧
        (m.create r).2.get? key = some raw ∧ Settled key r start raw ∧
        (m.create r).2.NoFailures key.kind) ∨
      m.create r = (.error (.alreadyExists key.ref), m) ∧ (m.get? key).isSome := by
  have hfailure : m.failure? .create r.kind = none := hr.kind_eq ▸ hnofail .create
  cases hget : m.get? key with
  | some raw => exact .inr ⟨create_of_present hfailure hr.key hget, rfl⟩
  | none =>
      have hstart : start = none := by
        rw [hget] at hsofar
        cases hsofar
        rfl
      subst hstart
      rcases m.create_cases r with
        ⟨e, herror, -⟩ | ⟨other, created, hkey, -, -, hcreated, hstores⟩
      · obtain ⟨created, hread⟩ := (settled_createdDocument hr m).live.readable
        cases herror.symm.trans (create_of_absent hfailure hr.key hget hread)
      · cases hr.key.symm.trans hkey
        exact .inl ⟨created, _, hcreated, rfl, rfl, hstores.get?_self, settled_createdDocument hr m,
          noFailures_of_failures hnofail hstores.failures⟩

/-- A read shows the object as it was at first, or one that needs no patch. -/
theorem get_startOrSettled (hr : r.IsDesired key) (hnofail : m.NoFailures key.kind)
    (hstart : ∀ raw, start = some raw → raw.IsLive key.kind)
    (hsofar : StartOrSettled key r start (m.get? key)) (hpresent : (m.get? key).isSome) :
    ∃ live, m.get key = .ok (some live) ∧
      if live.body.patchChanges r.mergePatch then
        ∃ raw, start = some raw ∧ r.applied start = (raw.merge r.mergePatch).unstamped
      else (m.get? key).map Json.unstamped = some (r.applied start) := by
  obtain ⟨raw, hget⟩ := Option.isSome_iff_exists.mp hpresent
  rw [hget] at hsofar ⊢
  cases hsofar with
  | untouched =>
      obtain ⟨live, hread⟩ := (hstart raw rfl).readable
      refine ⟨live, get_of_present (hnofail .get) hget hread, ?_⟩
      have happlied : r.applied (some raw) =
          if live.body.patchChanges r.mergePatch then (raw.merge r.mergePatch).unstamped
          else raw.unstamped := by
        rw [Resource.applied, hr.kind_eq, hread]
      split
      · next hchanges => exact ⟨raw, rfl, happlied.trans (if_pos hchanges)⟩
      · next hchanges => exact congrArg some (happlied.trans (if_neg hchanges)).symm
  | settled hraw =>
      obtain ⟨live, hread⟩ := hraw.live.readable
      refine ⟨live, get_of_present (hnofail .get) hget hread, ?_⟩
      have hchanges : live.body.patchChanges r.mergePatch = false := by
        rw [hr.mergePatch]
        have hcanonical := Schema.isCanonical_of_read (Kind.isRegular_schema (hr.kind_eq ▸ hr.kind))
          hraw.live.canonical (readAs_eq_ok_iff.mp hread).2
        exact Json.patchChanges_eq_false_of_satisfies hcanonical hr.canonical
          (hr.satisfies_of_readAs hread hraw.satisfied)
      rw [hchanges]
      exact congrArg some hraw.same

/-- A patch settles the object, also if it is settled. -/
theorem patch_startOrSettled {raw : Json} (hr : r.IsDesired key) (hnofail : m.NoFailures key.kind)
    (hstart : raw.IsLive key.kind) (hchanges : r.applied (some raw) = (raw.merge r.mergePatch).unstamped)
    (hsofar : StartOrSettled key r (some raw) (m.get? key)) :
    ∃ patched settled, (m.patch key r.mergePatch).1 = .ok patched ∧
      (m.patch key r.mergePatch).2.get? key = some settled ∧ Settled key r (some raw) settled ∧
      (m.patch key r.mergePatch).2.NoFailures key.kind := by
  obtain ⟨live, hget, hlive, hmerge⟩ : ∃ live, m.get? key = some live ∧ live.IsLive key.kind ∧
      (live.merge r.mergePatch).unstamped = r.applied (some raw) := by
    generalize m.get? key = found at hsofar
    cases hsofar with
    | untouched => exact ⟨raw, rfl, hstart, hchanges.symm⟩
    | @settled live hraw =>
        refine ⟨live, rfl, hraw.live, ?_⟩
        rw [hr.mergePatch, Json.merge_of_satisfies hraw.live.canonical hr.canonical hr.isPlain
          hraw.satisfied]
        exact hraw.same
  have hsettled := settled_patchedDocument hr m hlive hmerge
  rcases m.patch_cases key r.mergePatch with
    ⟨e, herror, -⟩ | ⟨other, patched, m', hother, -, hpatched, hstores, hsettle⟩
  · obtain ⟨patched, hread⟩ := hsettled.live.readable
    cases herror.symm.trans (patch_of_present (hnofail .patch) hget hread)
  · cases hget.symm.trans hother
    rw [settle_of_unmarked hstores.get?_self hsettled.live.unmarked] at hsettle
    rw [hsettle]
    exact ⟨patched, _, hpatched, hstores.get?_self, hsettled,
      noFailures_of_failures hnofail hstores.failures⟩

/-! ### Applications that take turns -/

def isCreated : Except StoreError ApplyOutcome → Bool
  | .ok .created => true
  | _ => false

def hasCreated : Program (Except StoreError ApplyOutcome) → Bool
  | .done result => isCreated result
  | _ => false

/-- The number of creations that it took to find this, where `start` was at first. -/
def creations (start found : Option Json) : Nat := if start = none ∧ found.isSome then 1 else 0

structure Advanced (key : ObjectKey) (r : Resource) (start found : Option Json) (m : Memory)
    (p : Program (Except StoreError ApplyOutcome)) : Prop where
  noFailures : m.NoFailures key.kind
  startOrSettled : StartOrSettled key r start (m.get? key)
  advances : Advances key r start found (m.get? key)
  stage : Stage key r start (m.get? key) p
  creations : creations start found + (hasCreated p).toNat = creations start (m.get? key)

variable {σ : Type} {h : Handler σ} {memory : σ → Memory}
  {p p' : Program (Except StoreError ApplyOutcome)} {s s' : σ}

theorem advanced_of_settled {raw : Json} {outcome : ApplyOutcome} (hnofail : m.NoFailures key.kind)
    (hfound : m.get? key = some raw) (hraw : Settled key r start raw)
    (hcreations : creations start found + (hasCreated (.done (.ok outcome))).toNat =
      creations start (some raw)) :
    Advanced key r start found m (.done (.ok outcome)) := by
  refine ⟨hnofail, ?_, ?_, ?_, ?_⟩ <;> rw [hfound]
  · exact .settled hraw
  · exact .inr ⟨raw, rfl, hraw⟩
  · exact .ended (congrArg some hraw.same)
  · exact hcreations

theorem advanced_of_left (hnofail : m.NoFailures key.kind)
    (hsofar : StartOrSettled key r start (m.get? key))
    (hstage : Stage key r start (m.get? key) p) (hcreations : hasCreated p = false) :
    Advanced key r start (m.get? key) m p :=
  ⟨hnofail, hsofar, .inl rfl, hstage, by rw [hcreations]; rfl⟩

/-- Whichever call it makes, an application goes on without an error. -/
theorem Stage.move (hr : r.IsDesired key) (hserves : h.Serves memory key)
    (hstart : ∀ raw, start = some raw → raw.IsLive key.kind)
    (hnofail : (memory s).NoFailures key.kind)
    (hsofar : StartOrSettled key r start ((memory s).get? key))
    (hstage : Stage key r start ((memory s).get? key) p) (hmove : p.Move h s p' s') :
    hasCreated p = false ∧ Advanced key r start ((memory s).get? key) (memory s') p' := by
  cases hstage with
  | begun =>
      rw [createOrPatch_of_key hr.key] at hmove ⊢
      obtain ⟨rfl, rfl⟩ := Program.Move.of_call hmove
      obtain ⟨m, hget, hnofail', hreply, hstate⟩ := hserves (.create r) s hnofail
      rw [← hget] at hsofar ⊢
      rw [hreply, hstate]
      refine ⟨rfl, ?_⟩
      change Advanced key r start (m.get? key) (m.create r).2 _
      rcases create_startOrSettled hr hnofail' hsofar with
        ⟨created, raw, hcreated, hnone, rfl, hfound, hsettled, hafter⟩ | ⟨hrefused, hpresent⟩
      · rw [show (Memory.perform (.create r) m).1 = .ok created from hcreated, hnone]
        exact advanced_of_settled hafter hfound hsettled rfl
      · rw [show Memory.perform (.create r) m = (.error (.alreadyExists key.ref), m) from hrefused,
          hrefused]
        exact advanced_of_left hnofail' hsofar (.refused hpresent) rfl
  | refused hpresent =>
      obtain ⟨rfl, rfl⟩ := Program.Move.of_call hmove
      obtain ⟨m, hget, hnofail', hreply, hstate⟩ := hserves (.get key) s hnofail
      rw [← hget] at hsofar hpresent ⊢
      rw [hreply, hstate]
      refine ⟨rfl, ?_⟩
      obtain ⟨live, hread, hchanges⟩ := get_startOrSettled hr hnofail' hstart hsofar hpresent
      rw [show Memory.perform (.get key) m = (.ok (some live), m) from congrArg (·, m) hread]
      change Advanced key r start (m.get? key) m
        (if live.body.patchChanges r.mergePatch then sendPatch key r else pure (.ok .unchanged))
      split at hchanges
      · next hpatch =>
          obtain ⟨raw, hraw, happlied⟩ := hchanges
          rw [if_pos hpatch]
          exact advanced_of_left hnofail' hsofar (.patching hraw happlied) rfl
      · next hpatch =>
          rw [if_neg hpatch]
          exact advanced_of_left hnofail' hsofar (.ended hchanges) rfl
  | patching hraw hchanges =>
      subst hraw
      obtain ⟨rfl, rfl⟩ := Program.Move.of_call hmove
      obtain ⟨m, hget, hnofail', hreply, hstate⟩ := hserves (.patch key r.mergePatch) s hnofail
      rw [← hget] at hsofar ⊢
      rw [hreply, hstate]
      refine ⟨rfl, ?_⟩
      obtain ⟨patched, settled, hpatched, hfound, hsettled, hafter⟩ :=
        patch_startOrSettled hr hnofail' (hstart _ rfl) hchanges hsofar
      rw [show (Memory.perform (.patch key r.mergePatch) m).1 = .ok patched from hpatched]
      exact advanced_of_settled hafter hfound hsettled rfl
  | ended => cases hmove

/-- Applications that take turns: each is at a stage of its own, and as many have created the object as
it took. -/
structure Invariant (key : ObjectKey) (r : Resource) (start : Option Json) (memory : σ → Memory)
    (running : Concurrent (Except StoreError ApplyOutcome) σ) : Prop where
  noFailures : (memory running.state).NoFailures key.kind
  startOrSettled : StartOrSettled key r start ((memory running.state).get? key)
  stages : ∀ p ∈ running.programs, Stage key r start ((memory running.state).get? key) p
  created : running.programs.countP hasCreated = creations start ((memory running.state).get? key)

variable {running running' : Concurrent (Except StoreError ApplyOutcome) σ}

theorem invariant_replicate (hr : r.IsDesired key) (hnofail : (memory s).NoFailures key.kind)
    (n : Nat) :
    Invariant key r ((memory s).get? key) memory ⟨List.replicate n (createOrPatch r), s⟩ := by
  refine ⟨hnofail, .untouched, fun p hp => ?_, ?_⟩
  · cases List.eq_of_mem_replicate hp
    exact .begun
  · have hbegun : hasCreated (createOrPatch r) = false := by
      rw [createOrPatch_of_key hr.key]
      rfl
    have hnone : creations ((memory s).get? key) ((memory s).get? key) = 0 := by
      cases (memory s).get? key <;> rfl
    rw [List.countP_replicate, hbegun, hnone]
    rfl

/-- One application moves, and no other is set back. -/
theorem Invariant.move (hr : r.IsDesired key) (hserves : h.Serves memory key)
    (hstart : ∀ raw, start = some raw → raw.IsLive key.kind)
    (hinvariant : Invariant key r start memory running) (hmove : Concurrent.Move h running running') :
    Invariant key r start memory running' := by
  obtain ⟨hnofail, hsofar, hstages, hcreated⟩ := hinvariant
  cases hmove with
  | @of p p' s s' before after hmove =>
      obtain ⟨hunended, hadvanced⟩ :=
        (hstages p (by simp)).move hr hserves hstart hnofail hsofar hmove
      refine ⟨hadvanced.noFailures, hadvanced.startOrSettled, forall_mem_replaced hstages
        (fun q hq => hq.stable hadvanced.advances) hadvanced.stage, ?_⟩
      have hcount := hadvanced.creations
      simp only [List.countP_append, List.countP_cons, hunended] at hcreated ⊢
      cases hended : hasCreated p' <;> simp [hended] at hcreated hcount ⊢ <;> omega

theorem Invariant.moves (hr : r.IsDesired key) (hserves : h.Serves memory key)
    (hstart : ∀ raw, start = some raw → raw.IsLive key.kind)
    (hinvariant : Invariant key r start memory running)
    (hmoves : Concurrent.Moves h running running') :
    Invariant key r start memory running' := by
  induction hmoves with
  | refl => exact hinvariant
  | tail _ hmove ih => exact ih.move hr hserves hstart hmove

/-- However many applications there are and however they take turns, they all work, they create the
object once, and leave what a single one would make of it. -/
theorem invariant_interleave (hr : r.IsDesired key) (hserves : h.Serves memory key)
    (hnofail : (memory s).NoFailures key.kind)
    (hstart : ∀ raw, (memory s).get? key = some raw → raw.IsLive key.kind) (n : Nat)
    (schedule : List Nat) :
    let ended := Task.interleave h (List.replicate n (createOrPatch r)) schedule s
    ended.1.length = n ∧
      (∀ result ∈ ended.1, ∃ outcome, result = .ok outcome ∧
        ((memory ended.2).get? key).map Json.unstamped = some (r.applied ((memory s).get? key))) ∧
      ended.1.countP isCreated = creations ((memory s).get? key) ((memory ended.2).get? key) := by
  intro ended
  have hmoves := Task.moves_interleave (h := h) s (List.replicate n (createOrPatch r)) schedule
  have hinvariant := (invariant_replicate hr hnofail n).moves hr hserves hstart hmoves
  have hlength := hmoves.length_eq
  have hcreated := hinvariant.created
  rw [List.length_map, List.length_replicate] at hlength
  rw [List.countP_map] at hcreated
  refine ⟨hlength, fun result hresult => ?_, hcreated⟩
  have hstage := hinvariant.stages (.done result) (List.mem_map_of_mem hresult)
  generalize hp : Program.done result = p at hstage
  cases hstage with
  | ended hreached =>
      cases hp
      exact ⟨_, rfl, hreached⟩
  | begun =>
      rw [createOrPatch_of_key hr.key] at hp
      cases hp
  | refused => cases hp
  | patching => cases hp

/-- Any number of applications of a child, in turns of any order, agree with a single one. -/
theorem createOrPatch_contended {raw : Json} {ipfs : Resource} (identity : Identity)
    (defaults : WorkloadDefaults) (child : Child) (n : Nat) (schedule : List Nat)
    (hserves : h.Serves memory key) (hipfs : readAs .ipfs raw = .ok ipfs)
    (hkey : (((Cluster.ofResource ipfs).children identity defaults).resource child).key = .ok key)
    (hnofail : (memory s).NoFailures key.kind)
    (hlive : ∀ live, (memory s).get? key = some live → live.IsLive key.kind) :
    let desired := ((Cluster.ofResource ipfs).children identity defaults).resource child
    let ended := Task.interleave h (List.replicate n (createOrPatch desired)) schedule s
    let alone := (createOrPatch desired).run h s
    ended.1.length = n ∧ (∀ result ∈ ended.1, ∃ outcome, result = .ok outcome) ∧
      ended.1.countP isCreated = (if (memory s).get? key = none ∧ 0 < n then 1 else 0) ∧
      (0 < n → ∃ raw raw', (memory ended.2).get? key = some raw ∧
        (memory alone.2).get? key = some raw' ∧ raw.unstamped = raw'.unstamped) := by
  intro desired ended alone
  have hr : desired.IsDesired key := Cluster.isDesired_of_key identity defaults child hipfs hkey
  obtain ⟨hlength, hworked, hcreated⟩ := invariant_interleave hr hserves hnofail hlive n schedule
  have hreached (hn : 0 < n) : ∃ raw, (memory ended.2).get? key = some raw ∧
      raw.unstamped = desired.applied ((memory s).get? key) := by
    obtain ⟨result, hresult⟩ := List.exists_mem_of_length_pos (hlength.symm ▸ hn)
    obtain ⟨-, -, hsame⟩ := hworked result hresult
    exact Option.map_eq_some_iff.mp hsame
  have halone : ∃ raw, (memory alone.2).get? key = some raw ∧
      raw.unstamped = desired.applied ((memory s).get? key) := by
    obtain ⟨-, hsingle, -⟩ := invariant_interleave hr hserves hnofail hlive 1 []
    obtain ⟨-, -, hsame⟩ := hsingle alone.1 (List.mem_singleton_self _)
    exact Option.map_eq_some_iff.mp hsame
  refine ⟨hlength, fun result hresult => ?_, ?_, fun hn => ?_⟩
  · obtain ⟨outcome, hok, -⟩ := hworked result hresult
    exact ⟨outcome, hok⟩
  · rcases Nat.eq_zero_or_pos n with rfl | hn
    · have hnone : ended.1 = [] := List.length_eq_zero_iff.mp hlength
      simp [hnone]
    · obtain ⟨found, hfound, -⟩ := hreached hn
      refine hcreated.trans ?_
      rw [show (memory (Task.interleave h _ schedule s).2).get? key = some found from hfound, creations]
      simp [hn]
  · obtain ⟨raw, hraw, hsame⟩ := hreached hn
    obtain ⟨raw', hraw', hsame'⟩ := halone
    exact ⟨raw, raw', hraw, hraw', hsame.trans hsame'.symm⟩

/-- Three applications of the service of a new cluster. -/
theorem createOrPatch_contended_service :
    let desired := ((Cluster.ofResource ⟨.ipfs, .declared⟩).children (.constant 0) .standard).resource
      .service
    let ended := Task.interleave Engine.handler (List.replicate 3 (createOrPatch desired))
      [0, 1, 2, 1, 0] { Engine.start .failing .standard with memory := .declared }
    ended.1.length = 3 ∧ ended.1.countP isCreated = 1 := by
  intro desired ended
  obtain ⟨hlength, -, hcreated, -⟩ := createOrPatch_contended (.constant 0) .standard .service 3
    [0, 1, 2, 1, 0] (s := { Engine.start .failing .standard with memory := .declared })
    (Engine.serves (Child.service.key "default" "ipfs")) readAs_declared rfl
    (failure?_of_nil rfl · _) nofun
  exact ⟨hlength, hcreated⟩

end Contention

end ClusterKeeper
