import ClusterKeeper.Proofs.Program.Contract
import ClusterKeeper.Proofs.Reconcile.Kept

/-!
What storing a child comes to on a well-formed store, whatever the child drifted to: if the calls are
answered, the child is there with all that is wanted of it, and everything else is as it was.
-/

namespace ClusterKeeper

open Memory Reconcile

/-- A stored document is an object of its key: its members are sorted by name, it can be read, and
its metadata carry the key. -/
structure Json.IsSound (raw : Json) (key : ObjectKey) : Prop where
  canonical : raw.isCanonical = true
  readable : key.kind.schema.Readable raw
  named : raw.IsNamed key

/-- All stored documents are objects of their keys, and no child of the declaration is being
deleted. -/
structure Memory.WellFormed (ns name : String) (m : Memory) : Prop where
  sound : ∀ key raw, m.get? key = some raw → raw.IsSound key
  unmarked : ∀ child raw, m.get? (Child.key ns name child) = some raw → raw.IsUnmarked

/-- The object of the key, as it is read, has all that is wanted of it. -/
def Memory.Holds (m : Memory) (key : ObjectKey) (r : Resource) : Prop :=
  ∃ raw live, m.get? key = some raw ∧ readAs key.kind raw = .ok live ∧
    live.body.satisfies r.body = true

/-- The declaration is there, reads as that object and is marked by the operator. -/
def Memory.Manages (ns name : String) (m : Memory) (ipfs : Resource) : Prop :=
  ∃ raw, m.get? ⟨.ipfs, ns, name⟩ = some raw ∧ readAs .ipfs raw = .ok ipfs ∧
    FinalizerState.observe ipfs finalizerToken = .managed

section

variable {ns name : String} {m m' : Memory} {key : ObjectKey} {child : Child} {r object : Resource}
  {raw live : Json}

theorem Json.IsSound.exists_read (h : raw.IsSound key) :
    ∃ found, readAs key.kind raw = .ok found := by
  obtain ⟨written, hread⟩ := h.readable
  exact ⟨⟨key.kind, written⟩, readAs_eq_ok_iff.mpr ⟨rfl, hread⟩⟩

theorem Memory.isPlain_of_readAs (hread : readAs key.kind raw = .ok object) :
    object.body.isPlain = true :=
  Schema.isPlain_of_isStable key.kind.isStable_schema (readAs_eq_ok_iff.mp hread).2

namespace Resource.IsDesired

theorem isSound_createdDocument (hr : r.IsDesired key) (m : Memory) :
    (m.createdDocument r).IsSound key :=
  ⟨hr.isCanonical_createdDocument m, hr.readable_createdDocument m,
    hr.isNamed (hr.carries_createdDocument m).satisfies⟩

theorem isSound_patchedDocument (hr : r.IsDesired key) (m : Memory) (hlive : live.IsSound key) :
    (m.patchedDocument live r.mergePatch).IsSound key :=
  ⟨hr.isCanonical_patchedDocument m hlive.canonical,
    hr.readable_patchedDocument m hlive.canonical hlive.readable,
    hr.isNamed (hr.satisfies_patchedDocument m live)⟩

theorem isCanonical_of_readAs (hr : r.IsDesired key) (hsound : raw.IsSound key)
    (hread : readAs key.kind raw = .ok object) : object.body.isCanonical = true :=
  Schema.isCanonical_of_read (Kind.isRegular_schema (hr.kind_eq ▸ hr.kind)) hsound.canonical
    (readAs_eq_ok_iff.mp hread).2

/-- What a patch does not change has all that is wanted. -/
theorem holds_of_unchanged (hr : r.IsDesired key) (hget : m.get? key = some raw)
    (hread : readAs key.kind raw = .ok object)
    (h : object.body.patchChanges r.mergePatch = false) : m.Holds key r := by
  rw [hr.mergePatch] at h
  exact ⟨raw, object, hget, hread,
    Json.satisfies_of_patchChanges_eq_false hr.canonical h⟩

theorem holds (hr : r.IsDesired key) (hget : m.get? key = some raw) (hsound : raw.IsSound key)
    (h : raw.satisfies r.body = true) : m.Holds key r := by
  obtain ⟨found, hread⟩ := hsound.exists_read
  exact ⟨raw, found, hget, hread, hr.satisfies_of_readAs hread h⟩

end Resource.IsDesired

namespace Memory

theorem Holds.congr (h : m.Holds key r) (hget : m'.get? key = m.get? key) : m'.Holds key r := by
  obtain ⟨raw, found, hraw, hrest⟩ := h
  exact ⟨raw, found, hget.trans hraw, hrest⟩

theorem get?_of_objects (h : m'.objects = m.objects) (key : ObjectKey) :
    m'.get? key = m.get? key := by
  rw [Memory.get?, h, Memory.get?]

theorem WellFormed.of_objects (hm : m.WellFormed ns name) (h : m'.objects = m.objects) :
    m'.WellFormed ns name :=
  ⟨fun key raw hraw => hm.sound key raw (get?_of_objects h key ▸ hraw),
    fun child raw hraw => hm.unmarked child raw (get?_of_objects h _ ▸ hraw)⟩

theorem WellFormed.of_stores (hm : m.WellFormed ns name) (h : Stores m key raw m')
    (hsound : raw.IsSound key) (hunmarked : raw.IsUnmarked) : m'.WellFormed ns name := by
  have hcases {other : ObjectKey} {found : Json} (hfound : m'.get? other = some found) :
      (other = key ∧ found = raw) ∨ m.get? other = some found := by
    by_cases heq : other = key
    · subst heq
      rw [h.get?_self] at hfound
      exact .inl ⟨rfl, (Option.some.inj hfound).symm⟩
    · exact .inr (h.get?_of_ne heq ▸ hfound)
  refine ⟨fun other found hfound => ?_, fun child found hfound => ?_⟩
  · rcases hcases hfound with ⟨rfl, rfl⟩ | hfound
    · exact hsound
    · exact hm.sound other found hfound
  · rcases hcases hfound with ⟨-, rfl⟩ | hfound
    · exact hunmarked
    · exact hm.unmarked child found hfound

theorem Manages.isDeclared {ipfs : Resource} (h : m.Manages ns name ipfs)
    (hm : m.WellFormed ns name) : (Cluster.ofResource ipfs).IsDeclared ns name := by
  obtain ⟨raw, hget, hread, -⟩ := h
  exact Cluster.isDeclared_of_readAs hread (hm.sound _ raw hget).named

theorem Manages.of_objects {ipfs : Resource} (h : m.Manages ns name ipfs)
    (hsame : m'.objects = m.objects) : m'.Manages ns name ipfs := by
  obtain ⟨raw, hget, hrest⟩ := h
  exact ⟨raw, (get?_of_objects hsame _).trans hget, hrest⟩

theorem wellFormed_declared : declared.WellFormed "default" "ipfs" := by
  refine ⟨fun key raw hraw => ?_, fun child raw hraw => ?_⟩
  · obtain ⟨rfl, rfl⟩ := eq_of_get?_declared hraw
    exact ⟨by decide, ⟨_, (readAs_eq_ok_iff.mp readAs_declared).2⟩, isNamed_declared⟩
  · obtain ⟨-, rfl⟩ := eq_of_get?_declared hraw
    exact isUnmarked_declared

theorem manages_declared : declared.Manages "default" "ipfs" ⟨.ipfs, .declared⟩ :=
  ⟨.declared, rfl, readAs_declared, by decide⟩

/-- The object was stored under the key, and nothing else changed. -/
structure Establishes (ns name : String) (m : Memory) (key : ObjectKey) (r : Resource) (m' : Memory) :
    Prop where
  wellFormed : m'.WellFormed ns name
  frame : ∀ other, other ≠ key → m'.get? other = m.get? other
  holds : m'.Holds key r

theorem Establishes.of_before {before : Memory} (h : Establishes ns name before key r m')
    (hsame : before.objects = m.objects) : Establishes ns name m key r m' :=
  ⟨h.wellFormed, fun other hne => (h.frame other hne).trans (get?_of_objects hsame other), h.holds⟩

theorem WellFormed.establishes (hm : m.WellFormed ns name) (hr : r.IsDesired key)
    (hstores : Stores m key raw m') (hsound : raw.IsSound key) (hcarries : raw.Carries r) :
    Establishes ns name m key r m' :=
  ⟨hm.of_stores hstores hsound hcarries.unmarked, fun _ hne => hstores.get?_of_ne hne,
    hr.holds hstores.get?_self hsound hcarries.satisfies⟩

variable {reply : Except StoreError Resource}

theorem WellFormed.create (hm : m.WellFormed ns name) (hr : r.IsDesired key)
    (h : m.create r = (reply, m')) :
    (∃ e, reply = .error e ∧ m'.objects = m.objects) ∨
      ∃ created, reply = .ok created ∧ m.get? key = none ∧
        m'.get? key = some (m.createdDocument r) ∧ Establishes ns name m key r m' := by
  have hcases := m.create_cases r
  rw [h] at hcases
  rcases hcases with ⟨e, rfl, hrefused⟩ | ⟨found, created, hfound, hnone, hread, rfl, hstores⟩
  · exact .inl ⟨e, rfl, hrefused.objects⟩
  · cases hr.key.symm.trans hfound
    exact .inr ⟨created, rfl, hnone, hstores.get?_self,
      hm.establishes hr hstores (hr.isSound_createdDocument m) (hr.carries_createdDocument m)⟩

/-- If no failure is in force, only an object that is there is not created. -/
theorem exists_of_create_error {e : StoreError} (hr : r.IsDesired key)
    (hfailure : m.failure? .create key.kind = none) (h : m.create r = (.error e, m')) :
    e = .alreadyExists key.ref ∧ ∃ raw, m.get? key = some raw := by
  rw [← hr.kind_eq] at hfailure
  cases hget : m.get? key with
  | none =>
      obtain ⟨created, hread⟩ := (hr.isSound_createdDocument m).exists_read
      have hcreated := create_of_absent hfailure hr.key hget hread
      rw [h] at hcreated
      cases hcreated
  | some raw =>
      rw [create_of_present hfailure hr.key hget] at h
      cases h
      exact ⟨rfl, raw, rfl⟩

theorem WellFormed.establishes_create (hm : m.WellFormed ns name) (hr : r.IsDesired key)
    (hfailures : m.failures = []) (habsent : m.get? key = none) :
    Establishes ns name m key r (m.create r).2 ∧ (m.create r).2.failures = [] := by
  constructor
  · rcases hm.create hr rfl with ⟨e, he, -⟩ | ⟨created, -, -, -, hestablishes⟩
    · obtain ⟨-, raw, hraw⟩ :=
        exists_of_create_error hr (failure?_of_nil hfailures _ _) (Prod.ext he rfl)
      rw [habsent] at hraw
      cases hraw
    · exact hestablishes
  · rcases m.create_cases r with ⟨_, -, hrefused⟩ | ⟨_, _, -, -, -, -, hstores⟩
    · exact hrefused.failures.trans hfailures
    · exact hstores.failures.trans hfailures

theorem WellFormed.patch (hm : m.WellFormed ns name) (hr : r.IsDesired (child.key ns name))
    (h : m.patch (child.key ns name) r.mergePatch = (reply, m')) :
    (∃ e, reply = .error e ∧ m'.objects = m.objects) ∨
      ∃ patched live, reply = .ok patched ∧ m.get? (child.key ns name) = some live ∧
        m'.get? (child.key ns name) = some (m.patchedDocument live r.mergePatch) ∧
        Establishes ns name m (child.key ns name) r m' := by
  have hcases := m.patch_cases (child.key ns name) r.mergePatch
  rw [h] at hcases
  rcases hcases with ⟨e, rfl, hrefused⟩ | ⟨live, patched, m₁, hget, hread, rfl, hstores, hsettle⟩
  · exact .inl ⟨e, rfl, hrefused.objects⟩
  · have hcarries := hr.carries_patchedDocument m (hm.unmarked child live hget)
    rw [settle_of_unmarked hstores.get?_self hcarries.unmarked] at hsettle
    cases hsettle
    exact .inr ⟨patched, live, rfl, hget, hstores.get?_self,
      hm.establishes hr hstores (hr.isSound_patchedDocument m (hm.sound _ live hget)) hcarries⟩

theorem WellFormed.patch_ne_error {e : StoreError} (hm : m.WellFormed ns name)
    (hr : r.IsDesired key) (hfailure : m.failure? .patch key.kind = none)
    (hget : m.get? key = some live) : (m.patch key r.mergePatch).1 ≠ .error e := by
  obtain ⟨patched, hread⟩ :=
    (hr.isSound_patchedDocument m (hm.sound key live hget)).exists_read
  rw [patch_of_present hfailure hget hread]
  nofun

/-- If no failure is in force, an object that is there can be read. -/
theorem WellFormed.get_of_present (hm : m.WellFormed ns name)
    (hfailure : m.failure? .get key.kind = none) (hget : m.get? key = some raw) :
    ∃ found, m.get key = .ok (some found) := by
  obtain ⟨found, hread⟩ := (hm.sound key raw hget).exists_read
  exact ⟨found, Memory.get_of_present hfailure hget hread⟩

end Memory

namespace Reconcile

/-- A pass that has the store to itself, but for failures of an allowed sort. -/
def isolated (allowed : List Failure → Prop) (answers : Except IdentityError Identity → Prop) :
    Surroundings :=
  ⟨fun m m' => ∃ failures, allowed failures ∧ m' = { m with failures }, answers⟩

def Reliable (allowed : List Failure → Prop) : Prop := ∀ failures, allowed failures → failures = []

def Exempts (allowed : List Failure → Prop) (op : Op) (kind : Kind) : Prop :=
  ∀ failures, allowed failures → ∀ f ∈ failures, f.kind = kind → f.op ≠ op

theorem Reliable.exempts {allowed : List Failure → Prop} (h : Reliable allowed) (op : Op)
    (kind : Kind) : Exempts allowed op kind := by
  intro failures hallowed f hf
  rw [h failures hallowed] at hf
  exact absurd hf List.not_mem_nil

theorem isolated_rely {allowed : List Failure → Prop}
    {answers : Except IdentityError Identity → Prop} (h : (isolated allowed answers).rely m m') :
    m'.objects = m.objects ∧ ∀ op kind, Exempts allowed op kind → m'.failure? op kind = none := by
  obtain ⟨failures, hallowed, rfl⟩ := h
  refine ⟨rfl, fun op kind hexempts => Option.map_eq_none_iff.mpr (List.find?_eq_none.mpr ?_)⟩
  intro f hf hmatches
  simp only [Bool.and_eq_true, decide_eq_true_eq] at hmatches
  exact hexempts failures hallowed f hf hmatches.2 hmatches.1

/-- What storing a child came to, to the document: a failure for its kind left the store as it was,
or the child is there, and is what is expected but for uid and version. -/
inductive Effect (ns name : String) (allowed : List Failure → Prop) (m : Memory) (key : ObjectKey)
    (r : Resource) (expected : Json) : Except StoreError ApplyOutcome → Memory → Prop where
  | failed {e : StoreError} {m' : Memory} (hsame : m'.objects = m.objects)
      (hblamed : ¬ ∀ op, Exempts allowed op key.kind) :
    Effect ns name allowed m key r expected (.error e) m'
  | established {outcome : ApplyOutcome} {raw : Json} {m' : Memory}
      (hestablishes : Establishes ns name m key r m')
      (hget : m'.get? key = some raw) (hraw : raw.unstamped = expected) :
    Effect ns name allowed m key r expected (.ok outcome) m'

variable {allowed : List Failure → Prop} {answers : Except IdentityError Identity → Prop} {t : Trace}
  {expected : Json} {result : Except StoreError ApplyOutcome}

theorem Effect.of_before {before : Memory}
    (h : Effect ns name allowed before key r expected result m')
    (hsame : before.objects = m.objects) : Effect ns name allowed m key r expected result m' := by
  cases h with
  | failed hsame' hblamed => exact .failed (hsame'.trans hsame) hblamed
  | established hestablishes hget hraw => exact .established (hestablishes.of_before hsame) hget hraw

end Reconcile

end

/-- What applying an object makes of what is stored under its key, but for uid and version. -/
def Resource.applied (r : Resource) : Option Json → Json
  | none => r.body.unstamped
  | some raw =>
    match readAs r.kind raw with
    | .error _ => raw.unstamped
    | .ok live =>
      if live.body.patchChanges r.mergePatch then (raw.merge r.mergePatch).unstamped
      else raw.unstamped

namespace Reconcile

variable {ns name : String} {m : Memory} {child : Child} {r : Resource} {t : Trace}
  {allowed : List Failure → Prop} {answers : Except IdentityError Identity → Prop}

/-- An object that was read is brought to what is wanted of it. -/
theorem effect_patchLive {live : Resource} {raw : Json} (hm : m.WellFormed ns name)
    (hr : r.IsDesired (child.key ns name)) (hget : m.get? (child.key ns name) = some raw)
    (hread : readAs (child.key ns name).kind raw = .ok live) :
    (if live.body.patchChanges r.mergePatch then do
        match ← Program.patch (child.key ns name) r.mergePatch with
        | .error e => pure (.error e)
        | .ok _ => pure (.ok .patched)
      else pure (.ok .unchanged) : Program (Except StoreError ApplyOutcome)).Meets
      (isolated allowed answers)
      (fun result t' m' => Effect ns name allowed m (child.key ns name) r
        (r.applied (m.get? (child.key ns name))) result m' ∧ t'.reports = t.reports) t m := by
  have happlied : r.applied (m.get? (child.key ns name)) =
      if live.body.patchChanges r.mergePatch then (raw.merge r.mergePatch).unstamped
      else raw.unstamped := by
    rw [hget, Resource.applied, hr.kind_eq, hread]
  rw [happlied]
  cases hchanges : live.body.patchChanges r.mergePatch with
  | false =>
      have hholds := hr.holds_of_unchanged hget hread hchanges
      exact ⟨.established ⟨hm, fun _ _ => rfl, hholds⟩ hget rfl, rfl⟩
  | true =>
      refine Program.meets_patch fun m₁ hrely reply m₂ hpatch => ?_
      obtain ⟨hsame, hfailures⟩ := isolated_rely hrely
      have hm₁ := hm.of_objects hsame
      have hget₁ := (get?_of_objects hsame _).trans hget
      rcases hm₁.patch hr hpatch with
        ⟨e, rfl, hsame₂⟩ | ⟨patched, live', rfl, hlive', hraw, hestablishes⟩
      · refine ⟨.failed (hsame₂.trans hsame) fun hexempts => ?_, rfl⟩
        refine hm₁.patch_ne_error (e := e) hr (hfailures _ _ (hexempts _)) hget₁ ?_
        rw [hpatch]
      · cases hget₁.symm.trans hlive'
        have hunstamped := unstamped_patchedDocument m₁ raw r.mergePatch
        exact ⟨.established (hestablishes.of_before hsame) hraw hunstamped, rfl⟩

/-- Whatever a child drifted to, it is brought to what is wanted of it. -/
theorem effect_createOrPatch (hm : m.WellFormed ns name) (hr : r.IsDesired (child.key ns name)) :
    (createOrPatch r).Meets (isolated allowed answers)
      (fun result t' m' => Effect ns name allowed m (child.key ns name) r
        (r.applied (m.get? (child.key ns name))) result m' ∧ t'.reports = t.reports) t m := by
  rw [createOrPatch, hr.key]
  refine Program.meets_create fun m₁ hrely₁ reply m₂ hcreate => ?_
  obtain ⟨hsame₁, hfailures₁⟩ := isolated_rely hrely₁
  rcases (hm.of_objects hsame₁).create hr hcreate with
    ⟨e, rfl, hsame₂⟩ | ⟨created, rfl, hnone, hraw, hestablishes⟩
  · replace hsame₂ := hsame₂.trans hsame₁
    -- without failures for the kind the child is there, and what follows is answered
    have hpresent (hexempts : ∀ op, Exempts allowed op (child.key ns name).kind) :
        e = .alreadyExists (child.key ns name).ref ∧ ∃ raw, m.get? (child.key ns name) = some raw := by
      rw [← get?_of_objects hsame₁]
      exact exists_of_create_error hr (hfailures₁ _ _ (hexempts _)) hcreate
    cases e with
    | alreadyExists object =>
        refine Program.meets_get fun m₃ hrely₃ => ?_
        obtain ⟨hsame₃, hfailures₃⟩ := isolated_rely hrely₃
        replace hsame₃ := hsame₃.trans hsame₂
        have hm₃ := hm.of_objects hsame₃
        have hreads (hexempts : ∀ op, Exempts allowed op (child.key ns name).kind) :
            ∃ live, m₃.get (child.key ns name) = .ok (some live) := by
          obtain ⟨-, raw, hraw⟩ := hpresent hexempts
          exact hm₃.get_of_present (hfailures₃ _ _ (hexempts _))
            ((get?_of_objects hsame₃ _).trans hraw)
        rcases hget : m₃.get (child.key ns name) with e | _ | live
        · refine ⟨.failed hsame₃ fun hexempts => ?_, rfl⟩
          obtain ⟨live, hlive⟩ := hreads hexempts
          cases hlive.symm.trans hget
        · refine ⟨.failed hsame₃ fun hexempts => ?_, rfl⟩
          obtain ⟨live, hlive⟩ := hreads hexempts
          cases hlive.symm.trans hget
        · obtain ⟨raw, hraw, hread⟩ := exists_of_get hget
          refine (effect_patchLive hm₃ hr hraw hread).mono fun _ _ _ h => ⟨?_, h.2⟩
          rw [← get?_of_objects hsame₃]
          exact h.1.of_before hsame₃
    | _ => exact ⟨.failed hsame₂ (fun hexempts => nomatch (hpresent hexempts).1), rfl⟩
  · rw [get?_of_objects hsame₁] at hnone
    rw [hnone]
    exact ⟨.established (hestablishes.of_before hsame₁) hraw (unstamped_createdDocument _ _), rfl⟩

end Reconcile

end ClusterKeeper
