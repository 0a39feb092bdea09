import ClusterKeeper.Proofs.Store.Fields
import ClusterKeeper.Proofs.Store.History
import ClusterKeeper.Proofs.Store.Objects

/-!
What callers of a store rely on: a call that fails did nothing, only one creation of an object
succeeds, no version and no uid is given out twice, and an update succeeds just if nothing happened to
the object since it was read.
-/

namespace ClusterKeeper

open Memory

namespace Operation

def creation? (key : ObjectKey) (m : Memory) : Operation → Option (Except StoreError Resource)
  | call (.create object) => if object.key.toOption = some key then some (m.create object).1 else none
  | _ => none

end Operation

namespace Memory

def creations (key : ObjectKey) : Memory → List Operation → List (Except StoreError Resource)
  | _, [] => []
  | m, op :: rest => (op.creation? key m).toList ++ creations key (op.apply m) rest

/-- The operation does not take away what is stored under the key. If it creates an object there, then
one that can be read, and the store was not made to fail. -/
structure AllowsCreation (key : ObjectKey) (m : Memory) (op : Operation) : Prop where
  spared : Spares key m op
  noFailures : ∀ {object}, op = .call (.create object) → object.key = .ok key →
    m.failure? .create key.kind = none
  readable : ∀ {object}, op = .call (.create object) → object.key = .ok key →
    key.kind.schema.Readable object.body

variable {m : Memory} {op : Operation} {key : ObjectKey} {raw live : Json}
  {history : List Operation} {object seen : Resource}

/-! ### Refusals -/

/-- A call that is answered with an error changes no object and logs no write. -/
theorem refuses_of_failed {call : StoreCall} {e : StoreError}
    (h : (perform call m).1 = call.failed e) :
    (perform call m).2.objects = m.objects ∧ (perform call m).2.log = m.log := by
  cases call with
  | get key => exact ⟨rfl, rfl⟩
  | create object =>
      rcases m.create_cases object with ⟨-, -, hrefused⟩ | ⟨_, _, -, -, -, hreply, -⟩
      · exact ⟨hrefused.objects, hrefused.log⟩
      · cases hreply.symm.trans h
  | patch key patch =>
      rcases m.patch_cases key patch with ⟨-, -, hrefused⟩ | ⟨_, _, _, -, -, hreply, -, -⟩
      · exact ⟨hrefused.objects, hrefused.log⟩
      · cases hreply.symm.trans h
  | update object =>
      rcases m.update_cases object with
        ⟨-, -, hrefused⟩ | ⟨_, _, _, _, -, -, -, -, hreply, -, -⟩
      · exact ⟨hrefused.objects, hrefused.log⟩
      · cases hreply.symm.trans h

/-! ### Creations -/

theorem creation?_cases (key : ObjectKey) (m : Memory) (op : Operation) :
    (op.creation? key m = none ∧ ∀ object, op = .call (.create object) → object.key ≠ .ok key) ∨
      ∃ object, op = .call (.create object) ∧ object.key = .ok key ∧
        op.creation? key m = some (m.create object).1 := by
  rw [Operation.creation?.eq_def]
  split
  · next object =>
      cases hkey : object.key with
      | error e => exact .inl ⟨rfl, fun _ h => by cases h; rw [hkey]; exact nofun⟩
      | ok found =>
          by_cases heq : found = key
          · subst heq
            exact .inr ⟨object, rfl, hkey, if_pos rfl⟩
          · refine .inl ⟨if_neg fun h => heq (Option.some.inj h), fun _ h => ?_⟩
            cases h
            rw [hkey]
            exact fun h => heq (Except.ok.inj h)
  · next hne => exact .inl ⟨rfl, fun object h => absurd h (hne object)⟩

/-- Only a creation brings an object where there is none. -/
theorem exists_create_of_absent (hproper : op.IsProper m) (hnone : m.get? key = none)
    (hraw : (op.apply m).get? key = some raw) :
    ∃ object, op = .call (.create object) ∧ object.key = .ok key := by
  rcases (op.effect m hproper).get? hraw with hold | ⟨hwrites, -⟩
  · cases hnone.symm.trans hold
  · cases hwrites with
    | create hkey => exact ⟨_, rfl, hkey⟩
    | patch hlive => cases hnone.symm.trans hlive
    | update _ hlive => cases hnone.symm.trans hlive
    | delete hlive => cases hnone.symm.trans hlive
    | tamper hlive => cases hnone.symm.trans hlive

theorem exists_of_create (hfailure : m.failure? .create key.kind = none)
    (hkey : object.key = .ok key) (hnone : m.get? key = none)
    (hreadable : key.kind.schema.Readable object.body) :
    ∃ reply, (m.create object).1 = .ok reply ∧
      (m.create object).2.get? key = some (m.createdDocument object) := by
  obtain ⟨written, hwritten⟩ := readable_createdDocument m hreadable
  have hread : readAs key.kind (m.createdDocument object) = .ok ⟨key.kind, written⟩ :=
    readAs_eq_ok_iff.mpr ⟨rfl, hwritten⟩
  have hok := create_of_absent ((Resource.named_of_key hkey).1 ▸ hfailure) hkey hnone hread
  rcases m.create_cases object with ⟨e, herror, -⟩ | ⟨found, reply, hfound, -, -, hreply, hstores⟩
  · cases hok.symm.trans herror
  · cases hkey.symm.trans hfound
    exact ⟨reply, hreply, hstores.get?_self⟩

/-- Where an object is and stays, every creation is told so. -/
theorem creations_of_present (hpresent : (m.get? key).isSome)
    (h : Throughout (AllowsCreation key) m history) :
    ∀ answer ∈ creations key m history, answer = .error (.alreadyExists key.ref) := by
  induction history generalizing m with
  | nil => exact nofun
  | cons op rest ih =>
      obtain ⟨hallows, hrest⟩ := h
      intro answer hanswer
      rcases List.mem_append.mp hanswer with hfirst | hlater
      · rcases creation?_cases key m op with ⟨hnone, -⟩ | ⟨object, rfl, hkey, hsome⟩
        · rw [hnone] at hfirst
          cases hfirst
        · obtain ⟨raw, hraw⟩ := Option.isSome_iff_exists.mp hpresent
          rw [hsome] at hfirst
          have hfailure := (Resource.named_of_key hkey).1 ▸ hallows.noFailures rfl hkey
          rw [List.mem_singleton.mp hfirst, create_of_present hfailure hkey hraw]
      · exact ih (hallows.spared hpresent) hrest answer hlater

/-- Of the creations where there is no object the first succeeds, and the others are told of it. -/
theorem creations_of_absent (hnone : m.get? key = none) (hproper : Proper m history)
    (h : Throughout (AllowsCreation key) m history) :
    creations key m history = [] ∨ ∃ reply later, creations key m history = .ok reply :: later ∧
      ∀ answer ∈ later, answer = .error (.alreadyExists key.ref) := by
  induction history generalizing m with
  | nil => exact .inl rfl
  | cons op rest ih =>
      obtain ⟨hop, hproper⟩ := hproper
      obtain ⟨hallows, hrest⟩ := h
      rw [creations]
      rcases creation?_cases key m op with ⟨hother, hne⟩ | ⟨object, rfl, hkey, hsome⟩
      · rw [hother, Option.toList_none, List.nil_append]
        cases hnext : (op.apply m).get? key with
        | none => exact ih hnext hproper hrest
        | some raw =>
            obtain ⟨object, hcreate, hkey⟩ := exists_create_of_absent hop hnone hnext
            exact absurd hkey (hne object hcreate)
      · obtain ⟨reply, hok, hstored⟩ := exists_of_create (hallows.noFailures rfl hkey) hkey hnone
          (hallows.readable rfl hkey)
        rw [hsome, hok]
        exact .inr ⟨reply, _, rfl,
          creations_of_present (Option.isSome_iff_exists.mpr ⟨_, hstored⟩) hrest⟩

/-! ### Updates -/

/-- How an update is answered that carries the version that its object was read under. -/
structure Guarded (m : Memory) (history : List Operation) (key : ObjectKey) (object : Resource) :
    Prop where
  accepted : (∃ reply, ((m.after history).update object).1 = .ok reply) ↔
    Throughout (Leaves key) m history
  gone : (m.after history).get? key = none →
    ((m.after history).update object).1 = .error (.notFound key.ref)
  modified : ((m.after history).get? key).isSome → ¬ Throughout (Leaves key) m history →
    ((m.after history).update object).1 =
      .error (.conflict key.ref "the object has been modified")

/-- A readable object that is not stale takes the place of the one that was read. -/
theorem exists_of_update (hfailure : m.failure? .update object.kind = none)
    (hkey : object.key = .ok key) (hlive : m.get? key = some live)
    (hstale : isStale live object = false) (hreadable : key.kind.schema.Readable live)
    (hbody : key.kind.schema.Readable object.body) : ∃ reply, (m.update object).1 = .ok reply := by
  obtain ⟨written, hwritten⟩ := readable_replacedDocument m hreadable hbody
  exact ⟨⟨key.kind, written⟩, update_of_present hfailure hkey hlive hstale
    (readAs_eq_ok_iff.mpr ⟨rfl, hwritten⟩)⟩

/-- An object that carries the version of a read is stale just if something happened since then. -/
theorem isStale_eq_false_iff (hm : m.Versioned) (hproper : Proper m history)
    (hraw : m.get? key = some raw) {n : Nat} (hn : raw.HasVersion n)
    (hcarried : object.resourceVersion? = some (toString n))
    (hlive : (m.after history).get? key = some live) :
    isStale live object = false ↔ Throughout (Leaves key) m history := by
  rw [throughout_leaves_iff hm hproper hraw, hlive]
  constructor
  · intro hfresh
    rw [(get?_of_not_stale (hm.after history).2 hm hraw hn hcarried hlive hfresh).2]
  · intro hsame
    rw [Option.some.inj hsame, isStale, hcarried, hn, Json.text?]
    simp

/-- An update that carries the version of a read is accepted just if nothing happened to the object
since then. -/
theorem guarded_of_get (hm : m.Versioned) (hproper : Proper m history)
    (hseen : m.get key = .ok (some seen)) (hkey : object.key = .ok key)
    (hversion : object.resourceVersion? = seen.resourceVersion?)
    (hbody : key.kind.schema.Readable object.body)
    (hfailure : (m.after history).failure? .update key.kind = none) :
    Guarded m history key object := by
  obtain ⟨raw, hraw, hread⟩ := exists_of_get hseen
  obtain ⟨n, -, hn⟩ := hm.issued hraw
  have hcarried : object.resourceVersion? = some (toString n) :=
    hversion.trans (Resource.resourceVersion?_of_hasVersion hread hn)
  have hleaves := throughout_leaves_iff hm hproper hraw
  rw [← (Resource.named_of_key hkey).1] at hfailure
  constructor
  · constructor
    · rintro ⟨reply, hok⟩
      cases hlive : (m.after history).get? key with
      | none => cases (update_of_absent hfailure hkey hlive).symm.trans hok
      | some live =>
          refine (isStale_eq_false_iff hm hproper hraw hn hcarried hlive).mp ?_
          refine eq_false_of_ne_true fun hstale => ?_
          cases (update_of_stale hfailure hkey hlive hstale).symm.trans hok
    · intro hleft
      have hlive := hleaves.mp hleft
      exact exists_of_update hfailure hkey hlive
        ((isStale_eq_false_iff hm hproper hraw hn hcarried hlive).mpr hleft)
        ⟨_, (readAs_eq_ok_iff.mp hread).2⟩ hbody
  · exact update_of_absent hfailure hkey
  · intro hpresent hchanged
    obtain ⟨live, hlive⟩ := Option.isSome_iff_exists.mp hpresent
    refine update_of_stale hfailure hkey hlive (eq_true_of_ne_false fun hfresh => hchanged ?_)
    exact (isStale_eq_false_iff hm hproper hraw hn hcarried hlive).mp hfresh

/-! ### The contract -/

/-- What callers can rely on in a state and in all that is done from there on. -/
structure Contract (m : Memory) (history : List Operation) : Prop where
  refuses : ∀ {call e}, (perform call m).1 = call.failed e →
    (perform call m).2.objects = m.objects ∧ (perform call m).2.log = m.log
  creates : ∀ {key}, m.get? key = none → Throughout (AllowsCreation key) m history →
    creations key m history = [] ∨ ∃ reply later, creations key m history = .ok reply :: later ∧
      ∀ answer ∈ later, answer = .error (.alreadyExists key.ref)
  versions : ∀ {key other raw raw'}, m.get? key = some raw →
    (m.after history).get? other = some raw' →
      (raw.metadataField "resourceVersion" = raw'.metadataField "resourceVersion" ↔
        key = other ∧ Throughout (Leaves key) m history)
  version_ne : ∀ {op later : Operation} {rest key other raw raw'}, history = op :: rest →
    op.Writes m key raw → later.Writes (m.after history) other raw' →
      raw.metadataField "resourceVersion" ≠ raw'.metadataField "resourceVersion"
  uids : ∀ {key other raw raw'}, m.get? key = some raw → (m.after history).get? other = some raw' →
    (raw.metadataField "uid" = raw'.metadataField "uid" ↔
      key = other ∧ Throughout (Spares key) m history)
  uid_ne : ∀ {object later reply rest}, history = .call (.create object) :: rest →
    (m.create object).1 = .ok reply →
      (m.createdDocument object).metadataField "uid" ≠
        ((m.after history).createdDocument later).metadataField "uid"
  updates : ∀ {key seen object}, m.get key = .ok (some seen) → object.key = .ok key →
    object.resourceVersion? = seen.resourceVersion? → key.kind.schema.Readable object.body →
      (m.after history).failure? .update key.kind = none → Guarded m history key object

/-- A store that was empty once keeps the contract, whatever is done to it. -/
theorem contract_holds (first : List Operation) (hproper : Proper .empty (first ++ history)) :
    Contract (Memory.empty.after first) history := by
  obtain ⟨hfirst, hlater⟩ := throughout_append.mp hproper
  have hversioned := (versioned_empty.after first).1
  have hidentified := (identified_empty.after hfirst).1
  refine ⟨refuses_of_failed, fun hnone hallows => creations_of_absent hnone hlater hallows,
    fun hraw hraw' => version_eq_iff hversioned hlater hraw hraw', ?_,
    fun hraw hraw' => uid_eq_iff hidentified hlater hraw hraw', ?_,
    fun hseen hkey hversion hbody hfailure =>
      guarded_of_get hversioned hlater hseen hkey hversion hbody hfailure⟩
  · rintro op rest later key other raw raw' rfl hwrites hwrites'
    exact version_ne_of_writes hversioned hlater.1 hwrites hwrites'
  · rintro object later reply rest rfl hok
    exact uid_ne_of_creates hidentified hlater hok

def sampleAccount : Resource :=
  ⟨.serviceAccount, .obj [
    ("apiVersion", .str "v1"),
    ("kind", .str "ServiceAccount"),
    ("metadata", .obj [("name", .str "ipfs"), ("namespace", .str "default")])]⟩

/-- What is done to the account: it is labelled, lost, and created again. -/
def sampleHistory : List Operation :=
  let labels := .obj [("metadata", .obj [("labels", .obj [("app", .str "ipfs")])])]
  [.tamper ⟨.serviceAccount, "default", "ipfs"⟩ labels,
   .remove ⟨.serviceAccount, "default", "ipfs"⟩, .call (.create sampleAccount)]

/-- The object that takes the place of a lost one is another one, which an update from before does not
touch. -/
theorem contract_holds_recreated :
    let m := empty.after [.call (.create sampleAccount)]
    ∃ seen, m.get ⟨.serviceAccount, "default", "ipfs"⟩ = .ok (some seen) ∧
      ((m.after sampleHistory).update seen).1 =
        .error (.conflict ⟨"ServiceAccount", "default", "ipfs"⟩ "the object has been modified") := by
  intro m
  have hproper : Proper .empty ([.call (.create sampleAccount)] ++ sampleHistory) := by
    refine ⟨trivial, fun live hlive => ?_, trivial, trivial, trivial⟩
    cases hlive
    rfl
  have hcontract := contract_holds _ hproper
  have hseen : m.get ⟨.serviceAccount, "default", "ipfs"⟩ = .ok (some ⟨.serviceAccount, _⟩) := rfl
  have hlost : ¬ Throughout (Leaves ⟨.serviceAccount, "default", "ipfs"⟩) m sampleHistory := by
    rintro ⟨-, ⟨-, hspared⟩, -⟩
    cases hspared rfl
  exact ⟨_, hseen, (hcontract.updates hseen rfl rfl ⟨_, rfl⟩ rfl).modified rfl hlost⟩

end Memory

end ClusterKeeper
