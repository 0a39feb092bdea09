import ClusterKeeper.Api.Wire
import ClusterKeeper.Proofs.Manifest.Desired
import Mathlib.Tactic.SplitIfs

/-!
What the application of a child says to an API server, and what it comes to, whatever the answers
are: it creates the child, reads it only if that is refused because it exists, and patches it only
if what it read lacks something.
-/

namespace ClusterKeeper

abbrev Dialogue := List (Request × Except ClientError Resource)

namespace Client

variable {σ α : Type} (exchange : Exchange σ) (rest : Handler σ)

def recorded : Exchange (σ × Dialogue) := fun call request s =>
  let (answer, t) := exchange call request s.1
  (answer, t, s.2 ++ [(request, answer)])

def handler : Handler σ := { rest with perform := perform exchange }

def recordingHandler : Handler (σ × Dialogue) where
  perform := perform (recorded exchange)
  generate s :=
    let (identity, t) := rest.generate s.1
    (identity, t, s.2)
  emit event s := (rest.emit event s.1, s.2)

theorem perform_recorded (call : StoreCall) (s : σ) (dialogue : Dialogue) :
    ∃ later, perform (recorded exchange) call (s, dialogue) =
      ((perform exchange call s).1, (perform exchange call s).2, later) := by
  rw [perform, perform]
  cases call.key with
  | error e => exact ⟨dialogue, rfl⟩
  | ok key =>
      by_cases hname : (call.needsName && decide (key.name = "")) = true
      · simp only [hname, if_true]
        exact ⟨dialogue, rfl⟩
      · simp only [hname]
        exact ⟨_, rfl⟩

theorem run_recordingHandler (p : Program α) (s : σ) (dialogue : Dialogue) :
    ∃ later, p.run (recordingHandler exchange rest) (s, dialogue) =
      ((p.run (handler exchange rest) s).1, (p.run (handler exchange rest) s).2, later) := by
  induction p generalizing s dialogue with
  | done value => exact ⟨dialogue, rfl⟩
  | call c next ih =>
      obtain ⟨said, hperform⟩ := perform_recorded exchange c s dialogue
      obtain ⟨later, hrun⟩ := ih (perform exchange c s).1 (perform exchange c s).2 said
      refine ⟨later, Eq.trans ?_ hrun⟩
      rw [Program.run]
      change ((next (perform (recorded exchange) c (s, dialogue)).1).run _
        (perform (recorded exchange) c (s, dialogue)).2) = _
      rw [hperform]
  | generate next ih => exact ih _ _ _
  | emit event next ih => exact ih _ _

/-- A call on an object with a name is a request, and its answer is the reply. -/
theorem perform_of_key {call : StoreCall} {key : ObjectKey} (hkey : call.key = .ok key)
    (hname : key.name ≠ "") (s : σ) :
    perform exchange call s =
      (call.conclude key.ref (exchange call (call.request key) s).1,
        (exchange call (call.request key) s).2) := by
  simp only [perform, hkey, hname, decide_false, Bool.and_false, Bool.false_eq_true, if_false]

/-- From any state, the program goes on from the dialogue to one that goes with its value. -/
def Leads (rule : Dialogue → α → Prop) (dialogue : Dialogue) (p : Program α) : Prop :=
  ∀ s, rule (p.run (recordingHandler exchange rest) (s, dialogue)).2.2
    (p.run (recordingHandler exchange rest) (s, dialogue)).1

variable {exchange rest} {rule : Dialogue → α → Prop} {dialogue : Dialogue}

theorem Leads.done {value : α} (h : rule dialogue value) :
    Leads exchange rest rule dialogue (.done value) := fun _ => h

theorem Leads.call {call : StoreCall} {next : call.Reply → Program α} {key : ObjectKey}
    (hkey : call.key = .ok key) (hname : key.name ≠ "")
    (h : ∀ answer, Leads exchange rest rule (dialogue ++ [(call.request key, answer)])
      (next (call.conclude key.ref answer))) :
    Leads exchange rest rule dialogue (.call call next) := by
  intro s
  have hnext := h (exchange call (call.request key) s).1 (exchange call (call.request key) s).2
  rw [Program.run]
  change rule ((next (perform (recorded exchange) call (s, dialogue)).1).run _
    (perform (recorded exchange) call (s, dialogue)).2).2.2
    ((next (perform (recorded exchange) call (s, dialogue)).1).run _
      (perform (recorded exchange) call (s, dialogue)).2).1
  rw [perform_of_key (recorded exchange) hkey hname]
  exact hnext

end Client

namespace Playback

variable {α : Type}

theorem requests_perform (call : StoreCall) (p : Playback) (dialogue : Dialogue) :
    ∃ said : Dialogue,
      (Client.perform (Client.recorded exchange) call (p, dialogue)).2.2 = dialogue ++ said ∧
        (Client.perform (Client.recorded exchange) call (p, dialogue)).2.1.requests =
          (said.map Prod.fst).reverse ++ p.requests := by
  rw [Client.perform]
  cases call.key with
  | error e => exact ⟨[], (List.append_nil _).symm, rfl⟩
  | ok key =>
      by_cases hname : (call.needsName && decide (key.name = "")) = true
      · simp only [hname, if_true]
        exact ⟨[], (List.append_nil _).symm, rfl⟩
      · simp only [hname]
        refine ⟨[(call.request key, _)], rfl, ?_⟩
        obtain ⟨answers, source, requests, warnings⟩ := p
        cases answers <;> rfl

theorem requests_run (program : Program α) (p : Playback) (dialogue : Dialogue) :
    ∃ said : Dialogue,
      (program.run (Client.recordingHandler exchange handler) (p, dialogue)).2.2 =
          dialogue ++ said ∧
        (program.run (Client.recordingHandler exchange handler) (p, dialogue)).2.1.requests =
          (said.map Prod.fst).reverse ++ p.requests := by
  induction program generalizing p dialogue with
  | done value => exact ⟨[], (List.append_nil _).symm, rfl⟩
  | call c next ih =>
      obtain ⟨said, hdialogue, hrequests⟩ := requests_perform c p dialogue
      obtain ⟨later, hdialogue', hrequests'⟩ :=
        ih (Client.perform (Client.recorded exchange) c (p, dialogue)).1
          (Client.perform (Client.recorded exchange) c (p, dialogue)).2.1
          (Client.perform (Client.recorded exchange) c (p, dialogue)).2.2
      refine ⟨said ++ later, ?_, ?_⟩
      · rw [← List.append_assoc, ← hdialogue]
        exact hdialogue'
      · rw [List.map_append, List.reverse_append, List.append_assoc, ← hrequests]
        exact hrequests'
  | generate next ih => exact ih _ _ _
  | emit event next ih => cases event <;> exact ih _ _

end Playback

namespace ClientError

/-- The server has the object that it was to create. -/
def IsExisting : ClientError → Prop
  | .refused status => status.code = 409 ∧ status.reason = "AlreadyExists"
  | _ => False

def IsMissing : ClientError → Prop
  | .refused status => status.reason = "NotFound"
  | _ => False

theorem IsExisting.reason {e : ClientError} (h : e.IsExisting) (status : Status)
    (he : e = .refused status) (_ : status.code = 409) : status.reason = "AlreadyExists" := by
  rw [he] at h
  exact h.2

theorem toStoreError_of_isExisting {e : ClientError} (h : e.IsExisting) (object : ObjectRef) :
    e.toStoreError object = .alreadyExists object := by
  cases e with
  | refused status => simp only [toStoreError, StoreError.ofRefusal, h.1, h.2]; rfl
  | unreadable reason => exact h.elim
  | connection fault => exact h.elim

/-- No other refusal is taken for it, not even one with its code. -/
theorem toStoreError_ne_alreadyExists {e : ClientError} (h : ¬e.IsExisting)
    (object other : ObjectRef) : e.toStoreError object ≠ .alreadyExists other := by
  cases e with
  | refused status =>
      intro heq
      simp only [toStoreError, StoreError.ofRefusal] at heq
      split_ifs at heq with habsent hcode hreason
      exact h ⟨hcode, hreason⟩
  | unreadable reason => nofun
  | connection fault => nofun

/-- A refusal with the code of a conflict is one, unless its reason is that the object exists. -/
theorem toStoreError_of_conflict {e : ClientError} (object : ObjectRef) (status : Status)
    (he : e = .refused status) (hcode : status.code = 409)
    (hreason : ¬status.reason = "AlreadyExists") :
    e.toStoreError object = .conflict object status.message := by
  simp only [he, toStoreError, StoreError.ofRefusal, hcode, hreason]
  rfl

theorem conclude_get_of_isMissing {e : ClientError} (h : e.IsMissing) (object : ObjectRef)
    (key : ObjectKey) : (StoreCall.get key).conclude object (.error e) = .ok none := by
  cases e with
  | refused status => exact if_pos h
  | unreadable reason => exact h.elim
  | connection fault => exact h.elim

theorem conclude_get_of_not_isMissing {e : ClientError} (h : ¬e.IsMissing) (object : ObjectRef)
    (key : ObjectKey) :
    (StoreCall.get key).conclude object (.error e) = .error (e.toStoreError object) := by
  cases e with
  | refused status => exact if_neg h
  | unreadable reason => rfl
  | connection fault => rfl

end ClientError

namespace Application

section

variable (key : ObjectKey) (desired : Resource)

def createRequest : Request := (StoreCall.create desired).request key

def getRequest : Request := (StoreCall.get key).request key

def patchRequest : Request := (StoreCall.patch key desired.mergePatch).request key

/-- The ways through an application, each with all that is said on it. -/
inductive Path : Dialogue → Except StoreError ApplyOutcome → Prop where
  | created (object : Resource) : Path [(createRequest key desired, .ok object)] (.ok .created)
  | refused (e : ClientError) (he : ¬e.IsExisting) :
      Path [(createRequest key desired, .error e)] (.error (e.toStoreError key.ref))
  | missing (e e' : ClientError) (he : e.IsExisting) (he' : e'.IsMissing) :
      Path [(createRequest key desired, .error e), (getRequest key, .error e')]
        (.error (.notFound key.ref))
  | unread (e e' : ClientError) (he : e.IsExisting) (he' : ¬e'.IsMissing) :
      Path [(createRequest key desired, .error e), (getRequest key, .error e')]
        (.error (e'.toStoreError key.ref))
  | unchanged (e : ClientError) (live : Resource) (he : e.IsExisting)
      (hlive : live.body.patchChanges desired.mergePatch = false) :
      Path [(createRequest key desired, .error e), (getRequest key, .ok live)] (.ok .unchanged)
  | patched (e : ClientError) (live object : Resource) (he : e.IsExisting)
      (hlive : live.body.patchChanges desired.mergePatch = true) :
      Path [(createRequest key desired, .error e), (getRequest key, .ok live),
        (patchRequest key desired, .ok object)] (.ok .patched)
  | unpatched (e e' : ClientError) (live : Resource) (he : e.IsExisting)
      (hlive : live.body.patchChanges desired.mergePatch = true) :
      Path [(createRequest key desired, .error e), (getRequest key, .ok live),
        (patchRequest key desired, .error e')] (.error (e'.toStoreError key.ref))

end

variable {key : ObjectKey} {desired : Resource} {σ : Type}

/-- Whatever it is answered, an application takes one of these ways. -/
theorem leads_createOrPatch (exchange : Exchange σ) (rest : Handler σ)
    (hkey : desired.key = .ok key) (hname : key.name ≠ "") :
    Client.Leads exchange rest (Path key desired) [] (createOrPatch desired) := by
  simp only [createOrPatch, hkey, Program.create, Program.get, Program.patch, bind, Program.bind]
  refine .call hkey hname fun answer => ?_
  cases answer with
  | ok object => exact .done (.created object)
  | error e =>
      have hreply : (StoreCall.create desired).conclude key.ref (.error e) =
        .error (e.toStoreError key.ref) := rfl
      rw [hreply]
      by_cases he : e.IsExisting
      · rw [ClientError.toStoreError_of_isExisting he]
        refine .call rfl hname fun answer => ?_
        cases answer with
        | ok live =>
            have hread : (StoreCall.get key).conclude key.ref (.ok live) = .ok (some live) := rfl
            rw [hread]
            cases hlive : live.body.patchChanges desired.mergePatch with
            | false =>
                simp only [hlive, Bool.false_eq_true, if_false]
                exact .done (.unchanged e live he hlive)
            | true =>
                simp only [hlive, if_true]
                refine .call rfl hname fun answer => ?_
                cases answer with
                | ok object => exact .done (.patched e live object he hlive)
                | error e' => exact .done (.unpatched e e' live he hlive)
        | error e' =>
            by_cases he' : e'.IsMissing
            · rw [ClientError.conclude_get_of_isMissing he']
              exact .done (.missing e e' he he')
            · rw [ClientError.conclude_get_of_not_isMissing he']
              exact .done (.unread e e' he he')
      -- No other error is matched as `alreadyExists`, so each of them is the result.
      · have hpath : Path key desired [(createRequest key desired, .error e)]
            (.error (e.toStoreError key.ref)) := .refused e he
        have hother := ClientError.toStoreError_ne_alreadyExists he key.ref
        generalize e.toStoreError key.ref = fault at hpath hother ⊢
        cases fault with
        | alreadyExists object => exact absurd rfl (hother object)
        | _ => exact .done hpath

/-! ### What is said when -/

section

variable (key : ObjectKey) (desired : Resource)

@[simp] theorem getRequest_beq_createRequest :
    (getRequest key == createRequest key desired) = false := beq_false_of_ne nofun

@[simp] theorem patchRequest_beq_createRequest :
    (patchRequest key desired == createRequest key desired) = false := beq_false_of_ne nofun

@[simp] theorem patchRequest_beq_getRequest :
    (patchRequest key desired == getRequest key) = false := beq_false_of_ne nofun

/-- The protocol of an application: it sends at most a creation, a read and a patch, in this order,
each exactly if the answer before calls for it, and the last answer is what it comes to. -/
structure Follows (dialogue : Dialogue) (result : Except StoreError ApplyOutcome) : Prop where
  requests : dialogue.map Prod.fst <+:
    [createRequest key desired, getRequest key, patchRequest key desired]
  creates : (dialogue.lookup (createRequest key desired)).isSome
  reads : (dialogue.lookup (getRequest key)).isSome ↔
    ∃ e, dialogue.lookup (createRequest key desired) = some (.error e) ∧ e.IsExisting
  patches : (dialogue.lookup (patchRequest key desired)).isSome ↔
    ∃ live, dialogue.lookup (getRequest key) = some (.ok live) ∧
      live.body.patchChanges desired.mergePatch = true
  created : result = .ok .created ↔
    ∃ object, dialogue.lookup (createRequest key desired) = some (.ok object)
  unchanged : result = .ok .unchanged ↔
    ∃ live, dialogue.lookup (getRequest key) = some (.ok live) ∧
      live.body.patchChanges desired.mergePatch = false
  patched : result = .ok .patched ↔
    ∃ object, dialogue.lookup (patchRequest key desired) = some (.ok object)
  conflict : ∀ status,
    dialogue.lookup (createRequest key desired) = some (.error (.refused status)) →
    status.code = 409 → status.reason ≠ "AlreadyExists" →
      dialogue.length = 1 ∧ result = .error (.conflict key.ref status.message)
  missing : ∀ e, dialogue.lookup (getRequest key) = some (.error e) → e.IsMissing →
    result = .error (.notFound key.ref)
  failed : ∀ request e, dialogue.getLast? = some (request, .error e) →
    ¬(request = getRequest key ∧ e.IsMissing) → result = .error (e.toStoreError key.ref)

end

theorem Path.follows {dialogue : Dialogue} {result : Except StoreError ApplyOutcome}
    (h : Path key desired dialogue result) : Follows key desired dialogue result := by
  -- The dialogue of a path is a list of up to three entries, in which all look-ups compute.
  cases h with
  | created object => constructor <;> simp [List.lookup_cons]
  | refused e he =>
      constructor <;> simp [List.lookup_cons, he]
      exact ClientError.toStoreError_of_conflict key.ref
  | missing e e' he he' =>
      constructor <;> simp [List.lookup_cons, he, he']
      exact he.reason
  | unread e e' he he' =>
      constructor <;> simp [List.lookup_cons, he, he']
      exact he.reason
  | unchanged e live he hlive =>
      constructor <;> simp [List.lookup_cons, he, hlive]
      exact he.reason
  | patched e live object he hlive =>
      constructor <;> simp [List.lookup_cons, he, hlive]
      exact he.reason
  | unpatched e e' live he hlive =>
      constructor <;> simp [List.lookup_cons, he, hlive]
      exact he.reason

def dialogue (exchange : Exchange σ) (rest : Handler σ) (desired : Resource) (s : σ) : Dialogue :=
  ((createOrPatch desired).run (Client.recordingHandler exchange rest) (s, [])).2.2

def result (exchange : Exchange σ) (rest : Handler σ) (desired : Resource) (s : σ) :
    Except StoreError ApplyOutcome :=
  ((createOrPatch desired).run (Client.handler exchange rest) s).1

theorem follows_of_key (exchange : Exchange σ) (rest : Handler σ) (s : σ)
    (hkey : desired.key = .ok key) (hname : key.name ≠ "") :
    Follows key desired (dialogue exchange rest desired s) (result exchange rest desired s) := by
  obtain ⟨later, hrun⟩ := Client.run_recordingHandler exchange rest (createOrPatch desired) s []
  have hpath := leads_createOrPatch exchange rest hkey hname s
  rw [hrun] at hpath
  rw [dialogue, hrun]
  exact hpath.follows

example :
    result Playback.exchange Playback.handler
      ⟨.serviceAccount,
        .obj [("metadata", .obj [("name", .str "peer"), ("namespace", .str "demo")])]⟩
      (.start
        [.response 409 "\x7b\"code\":409,\"reason\":\"AlreadyExists\"\x7d", .response 404 "gone"]
        .failing) = .error (.notFound ⟨"ServiceAccount", "demo", "peer"⟩) := by
  decide +kernel

theorem requests_createOrPatch (answers : List WireAnswer) (source : IdentitySource) :
    ((createOrPatch desired).run Playback.handler (.start answers source)).2.requests.reverse =
      (dialogue Playback.exchange Playback.handler desired
        (.start answers source)).map Prod.fst := by
  obtain ⟨later, hrun⟩ := Client.run_recordingHandler Playback.exchange Playback.handler
    (createOrPatch desired) (.start answers source) []
  obtain ⟨said, hdialogue, hrequests⟩ :=
    Playback.requests_run (createOrPatch desired) (.start answers source) []
  rw [dialogue, hdialogue, List.nil_append]
  rw [hrun] at hrequests
  change ((createOrPatch desired).run Playback.handler _).2.requests =
    (said.map Prod.fst).reverse ++ [] at hrequests
  rw [hrequests, List.append_nil, List.reverse_reverse]

end Application

theorem Child.key_name_ne_empty (ns name : String) (child : Child) :
    (child.key ns name).name ≠ "" := by
  cases child <;> simp [Child.key, ChildNames.ofCluster]

namespace Cluster

variable (cluster : Cluster) (identity : Identity) (defaults : WorkloadDefaults) (child : Child)

theorem key_child {ns : String} (h : cluster.ns = some ns) :
    ((cluster.children identity defaults).resource child).key =
      .ok (child.key ns cluster.name) := by
  obtain ⟨name, _, uid, spec⟩ := cluster
  cases h
  cases child <;> rfl

theorem key_child_of_none (h : cluster.ns = none) :
    ((cluster.children identity defaults).resource child).key = .error (.missingMetadata .ns) := by
  obtain ⟨name, _, uid, spec⟩ := cluster
  cases h
  cases child <;> rfl

/-- Whatever a server answers, a child that has a namespace is applied by the protocol; without one
nothing is sent. -/
theorem applications_follow {σ : Type} (exchange : Exchange σ) (rest : Handler σ) (s : σ) :
    let desired := (cluster.children identity defaults).resource child
    let dialogue := Application.dialogue exchange rest desired s
    let result := Application.result exchange rest desired s
    match cluster.ns with
    | some ns => Application.Follows (child.key ns cluster.name) desired dialogue result
    | none => dialogue = [] ∧ result = .error (.missingMetadata .ns) := by
  intro desired dialogue result
  cases hns : cluster.ns with
  | some ns =>
      exact Application.follows_of_key exchange rest s
        (key_child cluster identity defaults child hns) (child.key_name_ne_empty ns cluster.name)
  | none =>
      have hkey := key_child_of_none cluster identity defaults child hns
      have hcreate : createOrPatch desired = .done (.error (.missingMetadata .ns)) := by
        rw [createOrPatch, hkey]
        rfl
      constructor
      · change Application.dialogue exchange rest desired s = []
        rw [Application.dialogue, hcreate]
        rfl
      · change Application.result exchange rest desired s = _
        rw [Application.result, hcreate]
        rfl

end Cluster

end ClusterKeeper
