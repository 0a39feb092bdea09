import ClusterKeeper.Proofs.Store.Uids

/-!
Histories of a store: calls, and what happens to the objects behind their back. A step either writes
one document, under the next version, or leaves all documents as they are or takes them away.
-/

namespace ClusterKeeper

open Memory

inductive Operation where
  | call (call : StoreCall)
  | delete (key : ObjectKey)
  | tamper (key : ObjectKey) (patch : Json)
  | remove (key : ObjectKey)
  /-- From now on these failures are in force. -/
  | fail (failures : List Failure)

namespace Operation

def apply (m : Memory) : Operation → Memory
  | call c => (Memory.perform c m).2
  | delete key => m.delete key
  | tamper key patch => (m.tamper key patch).getD m
  | remove key => m.remove key
  | fail failures => { m with failures }

/-- An unseen change leaves the uid alone, and with it that the metadata are an object. -/
def IsProper (m : Memory) : Operation → Prop
  | tamper key patch => ∀ live, m.get? key = some live →
      (live.merge patch).metadataField "uid" = live.metadataField "uid"
  | _ => True

/-- The operation writes the document under the key, be it that the object goes by that. -/
inductive Writes (m : Memory) : Operation → ObjectKey → Json → Prop where
  | create {object reply : Resource} {key : ObjectKey} (hkey : object.key = .ok key)
      (h : (m.create object).1 = .ok reply) :
      Writes m (.call (.create object)) key (m.createdDocument object)
  | patch {key : ObjectKey} {patch live : Json} {reply : Resource} (hlive : m.get? key = some live)
      (h : (m.patch key patch).1 = .ok reply) :
      Writes m (.call (.patch key patch)) key (m.patchedDocument live patch)
  | update {object reply : Resource} {key : ObjectKey} {live : Json} (hkey : object.key = .ok key)
      (hlive : m.get? key = some live) (h : (m.update object).1 = .ok reply) :
      Writes m (.call (.update object)) key (m.replacedDocument live object)
  | delete {key : ObjectKey} {live : Json} (hlive : m.get? key = some live) :
      Writes m (.delete key) key (m.markedDocument live)
  | tamper {key : ObjectKey} {patch live : Json} (hlive : m.get? key = some live) :
      Writes m (.tamper key patch) key (m.stamped (live.merge patch))

/-- The document has the uid of the one that it takes the place of, or else the next one. -/
inductive Names (m : Memory) (key : ObjectKey) (raw : Json) (m' : Memory) : Prop where
  | same {live : Json} (hlive : m.get? key = some live)
      (huid : raw.metadataField "uid" = live.metadataField "uid") (huids : m'.uids = m.uids)
  | fresh (hfree : m.get? key = none) (huid : raw.metadataField "uid" = .str (uidOf m'.uids))
      (huids : m'.uids = m.uids + 1)

inductive Effect (m : Memory) (op : Operation) (m' : Memory) : Prop where
  | silent (hwrites : ∀ key raw, ¬ op.Writes m key raw) (hversions : m.versions ≤ m'.versions)
      (huids : m.uids ≤ m'.uids)
      (hleft : ∀ {other found}, m'.get? other = some found → m.get? other = some found)
  | wrote {key : ObjectKey} {raw : Json} {m₁ : Memory} (hwrites : op.Writes m key raw)
      (hstores : Stores m key raw m₁) (hnames : Names m key raw m')
      (hversions : m'.versions = m₁.versions)
      (hleft : ∀ {other found}, m'.get? other = some found → m₁.get? other = some found)

variable {m m' m₁ : Memory} {op : Operation} {key : ObjectKey} {raw live : Json}

/-- What a write leaves when the object goes that is to go. -/
theorem effect_of_settle (hwrites : op.Writes m key raw) (hstores : Stores m key raw m₁)
    (hlive : m.get? key = some live) (huid : raw.metadataField "uid" = live.metadataField "uid")
    (hsettle : m' = m₁.settle key) (huids : m'.uids = m.uids) : Effect m op m' := by
  subst hsettle
  exact .wrote hwrites hstores (.same hlive huid huids) (settle_versions m₁ key) settle_get?_imp

theorem effect_of_refuses (hwrites : ∀ key raw, ¬ op.Writes m key raw) (h : Refuses m m')
    (huids : m.uids ≤ m'.uids) : Effect m op m' :=
  .silent hwrites h.versions huids fun hfound => h.get? _ ▸ hfound

theorem effect (op : Operation) (m : Memory) (hproper : op.IsProper m) :
    Effect m op (op.apply m) := by
  cases op with
  | call c =>
      cases c with
      | get key => exact .silent (by rintro _ _ ⟨⟩) (Nat.le_refl _) (Nat.le_refl _) id
      | create object =>
          obtain ⟨hle, huids⟩ := m.create_uids object
          rcases m.create_cases object with ⟨e, herror, h⟩ | ⟨key, reply, hkey, hnone, -, hreply, h⟩
          · refine effect_of_refuses (fun key raw hwrites => ?_) h hle
            cases hwrites with
            | create _ hok => cases herror.symm.trans hok
          · refine .wrote (.create hkey hreply) h (.fresh hnone ?_ (huids reply hreply)) rfl id
            rw [uid_createdDocument, apply, perform, huids reply hreply, uidOf]
      | patch key patch =>
          have huids := m.patch_uids key patch
          rcases m.patch_cases key patch with
            ⟨e, herror, h⟩ | ⟨live, reply, m₁, hlive, -, hreply, h, hsettle⟩
          · refine effect_of_refuses (fun key raw hwrites => ?_) h (Nat.le_of_eq huids.symm)
            cases hwrites with
            | patch _ hok => cases herror.symm.trans hok
          · exact effect_of_settle (.patch hlive hreply) h hlive (uid_patchedDocument m live patch)
              hsettle huids
      | update object =>
          have huids := m.update_uids object
          rcases m.update_cases object with
            ⟨e, herror, h⟩ | ⟨key, live, reply, m₁, hkey, hlive, -, -, hreply, h, hsettle⟩
          · refine effect_of_refuses (fun key raw hwrites => ?_) h (Nat.le_of_eq huids.symm)
            cases hwrites with
            | update _ _ hok => cases herror.symm.trans hok
          · exact effect_of_settle (.update hkey hlive hreply) h hlive
              (uid_replacedDocument m live object) hsettle huids
  | delete key =>
      have huids := m.delete_uids key
      rcases m.delete_cases key with ⟨hnone, hsame⟩ | ⟨live, m₁, hlive, h, hsettle⟩
      · rw [apply, hsame]
        refine .silent (fun key raw hwrites => ?_) (Nat.le_refl _) (Nat.le_refl _) id
        cases hwrites with
        | delete hlive => cases hnone.symm.trans hlive
      · refine effect_of_settle (.delete hlive) h hlive ?_ hsettle huids
        rw [markedDocument, metadataField_stamped (by decide),
          Json.metadataField_setMetadataField_of_ne (by decide)]
  | tamper key patch =>
      cases hlive : m.get? key with
      | none =>
          have hnone : m.tamper key patch = none := by rw [Memory.tamper, hlive]; rfl
          rw [apply, hnone]
          refine .silent (fun key raw hwrites => ?_) (Nat.le_refl _) (Nat.le_refl _) id
          cases hwrites with
          | tamper hfound => cases hlive.symm.trans hfound
      | some live =>
          obtain ⟨m₁, hsome⟩ : ∃ m₁, m.tamper key patch = some m₁ := by
            rw [Memory.tamper, hlive]
            exact ⟨_, rfl⟩
          rw [apply, hsome]
          obtain ⟨found, hfound, h⟩ := exists_of_tamper hsome
          cases hlive.symm.trans hfound
          refine .wrote (.tamper hlive) h (.same hlive ?_ (tamper_uids hsome)) rfl id
          rw [metadataField_stamped (by decide), hproper live hlive]
  | remove key =>
      exact .silent (by rintro _ _ ⟨⟩) (Nat.le_refl _) (Nat.le_refl _) lookup_erase_imp
  | fail failures => exact .silent (by rintro _ _ ⟨⟩) (Nat.le_refl _) (Nat.le_refl _) id

theorem edit (op : Operation) (m : Memory) : Edit m (op.apply m) := by
  cases op with
  | call c => exact .call c
  | delete key => exact .delete key
  | tamper key patch =>
      rw [apply]
      cases htamper : m.tamper key patch with
      | none => exact .fail m.failures
      | some m' => exact .tamper htamper
  | remove key => exact .remove key
  | fail failures => exact .fail failures

theorem Writes.hasVersion (h : op.Writes m key raw) : raw.HasVersion (m.versions + 1) := by
  cases h <;> exact stamped_version m _

theorem Writes.key_unique {other : ObjectKey} {found : Json} (h : op.Writes m key raw)
    (h' : op.Writes m other found) : key = other := by
  cases h with
  | create hkey =>
      cases h' with
      | create hkey' => exact Except.ok.inj (hkey.symm.trans hkey')
  | update hkey =>
      cases h' with
      | update hkey' => exact Except.ok.inj (hkey.symm.trans hkey')
  | _ =>
      cases h'
      rfl

theorem Effect.versions (h : Effect m op m') (hwrites : op.Writes m key raw) :
    m'.versions = m.versions + 1 := by
  cases h with
  | silent hsilent => exact absurd hwrites (hsilent key raw)
  | wrote _ hstores _ hversions => exact hversions.trans hstores.versions

/-- What an operation writes under, it leaves nothing older under. -/
theorem Effect.hasVersion_of_writes (h : Effect m op m') (hwrites : op.Writes m key raw)
    {found : Json} (hfound : m'.get? key = some found) : found.HasVersion (m.versions + 1) := by
  cases h with
  | silent hsilent => exact absurd hwrites (hsilent key raw)
  | wrote hwrites' hstores _ _ hleft =>
      obtain rfl := hwrites.key_unique hwrites'
      cases hstores.get?_self.symm.trans (hleft hfound)
      exact hwrites'.hasVersion

/-- What is stored after an operation was stored before, or was written by it. -/
theorem Effect.get? (h : Effect m op m') {other : ObjectKey} {found : Json}
    (hfound : m'.get? other = some found) :
    m.get? other = some found ∨ op.Writes m other found ∧ Names m other found m' := by
  cases h with
  | silent _ _ _ hleft => exact .inl (hleft hfound)
  | @wrote key raw m₁ hwrites hstores hnames _ hleft =>
      replace hfound := hleft hfound
      by_cases heq : other = key
      · subst heq
        cases hstores.get?_self.symm.trans hfound
        exact .inr ⟨hwrites, hnames⟩
      · exact .inl (hstores.get?_of_ne heq ▸ hfound)

theorem Effect.uids (h : Effect m op m') : m.uids ≤ m'.uids := by
  cases h with
  | silent _ _ huids => exact huids
  | wrote _ _ hnames =>
      cases hnames with
      | same _ _ huids => exact Nat.le_of_eq huids.symm
      | fresh _ _ huids => exact huids ▸ Nat.le_succ _

theorem Effect.lineage (h : Effect m op m') : Lineage m m' := by
  refine ⟨h.uids, fun {other found} hfound => ?_⟩
  rcases h.get? hfound with hold | ⟨-, hnames⟩
  · exact .inl ⟨found, hold, rfl⟩
  · cases hnames with
    | same hlive huid => exact .inl ⟨_, hlive, huid.symm⟩
    | fresh _ huid huids => exact .inr ⟨m'.uids, huids ▸ Nat.lt_succ_self _, Nat.le_refl _, huid⟩

end Operation

namespace Memory

/-- A uid is as old as the creation that gave it out. -/
theorem lineage_perform (m : Memory) (call : StoreCall) : Lineage m (perform call m).2 :=
  ((Operation.call call).effect m trivial).lineage

def after (m : Memory) (history : List Operation) : Memory := history.foldl Operation.apply m

/-- Each step of a history is so, in the state that it is taken in. -/
def Throughout (step : Memory → Operation → Prop) : Memory → List Operation → Prop
  | _, [] => True
  | m, op :: rest => step m op ∧ Throughout step (op.apply m) rest

/-- The operation does not take away what is stored under the key. -/
def Spares (key : ObjectKey) (m : Memory) (op : Operation) : Prop :=
  (m.get? key).isSome → ((op.apply m).get? key).isSome

/-- The operation neither writes under the key nor takes away what is stored there. -/
structure Leaves (key : ObjectKey) (m : Memory) (op : Operation) : Prop where
  unwritten : ∀ raw, ¬ op.Writes m key raw
  spared : Spares key m op

/-- A history whose unseen changes leave uids alone. -/
def Proper : Memory → List Operation → Prop := Throughout fun m op => op.IsProper m

/-- Every object has a uid that was given out to it alone. -/
structure Identified (m : Memory) : Prop where
  issued : ∀ {key raw}, m.get? key = some raw →
    ∃ n ≤ m.uids, raw.metadataField "uid" = .str (uidOf n)
  unique : ∀ {key other raw raw'}, m.get? key = some raw → m.get? other = some raw' →
    raw.metadataField "uid" = raw'.metadataField "uid" → key = other

variable {m : Memory} {op : Operation} {key other : ObjectKey} {raw raw' : Json}
  {history first rest : List Operation} {step : Memory → Operation → Prop}

theorem throughout_append :
    Throughout step m (first ++ rest) ↔
      Throughout step m first ∧ Throughout step (m.after first) rest := by
  induction first generalizing m with
  | nil => exact (iff_of_eq (true_and _)).symm
  | cons op first ih =>
      rw [List.cons_append, Throughout, ih, Throughout, and_assoc]
      rfl

/-! ### Versions -/

theorem Versioned.after (hm : m.Versioned) (history : List Operation) :
    (m.after history).Versioned ∧ Since m (m.after history) := by
  induction history generalizing m with
  | nil => exact ⟨hm, .refl m⟩
  | cons op rest ih =>
      obtain ⟨hversioned, hsince⟩ := (op.edit m).versioned_since hm
      obtain ⟨hversioned', hsince'⟩ := ih hversioned
      exact ⟨hversioned', hsince.trans hsince'⟩

/-- An operation leaves a document just if it is still there. -/
theorem leaves_iff (hm : m.Versioned) (hproper : op.IsProper m) (hraw : m.get? key = some raw) :
    Leaves key m op ↔ (op.apply m).get? key = some raw := by
  have heffect := op.effect m hproper
  constructor
  · rintro ⟨hunwritten, hspared⟩
    obtain ⟨next, hnext⟩ := Option.isSome_iff_exists.mp (hspared (hraw ▸ rfl))
    rcases heffect.get? hnext with hold | ⟨hwrites, -⟩
    · rw [hnext, ← hold, hraw]
    · exact absurd hwrites (hunwritten next)
  · intro hnext
    refine ⟨fun written hwrites => ?_, fun _ => hnext ▸ rfl⟩
    obtain ⟨n, hn, hversion⟩ := hm.issued hraw
    have hfresh := hversion.unique (heffect.hasVersion_of_writes hwrites hnext)
    omega

/-- A document that is there again after a history was there all along. -/
theorem throughout_leaves_iff (hm : m.Versioned) (hproper : Proper m history)
    (hraw : m.get? key = some raw) :
    Throughout (Leaves key) m history ↔ (m.after history).get? key = some raw := by
  induction history generalizing m with
  | nil => exact ⟨fun _ => hraw, fun _ => trivial⟩
  | cons op rest ih =>
      obtain ⟨hop, hrest⟩ := hproper
      obtain ⟨hversioned, hsince⟩ := (op.edit m).versioned_since hm
      constructor
      · rintro ⟨hleaves, hlater⟩
        exact (ih hversioned hrest ((leaves_iff hm hop hraw).mp hleaves)).mp hlater
      · intro hafter
        obtain ⟨n, hn, hversion⟩ := hm.issued hraw
        have hnext : (op.apply m).get? key = some raw := by
          rcases (hversioned.after rest).2.changed hafter with hget | ⟨k, hlower, -, hk⟩
          · exact hget
          · have hle := hsince.versions
            have hnk := hversion.unique hk
            omega
        exact ⟨(leaves_iff hm hop hraw).mpr hnext, (ih hversioned hrest hnext).mpr hafter⟩

/-- Two documents of a history have the same version just if they are one and the same. -/
theorem version_eq_iff (hm : m.Versioned) (hproper : Proper m history)
    (hraw : m.get? key = some raw) (hraw' : (m.after history).get? other = some raw') :
    raw.metadataField "resourceVersion" = raw'.metadataField "resourceVersion" ↔
      key = other ∧ Throughout (Leaves key) m history := by
  constructor
  · intro hsame
    obtain ⟨n, hn, hversion⟩ := hm.issued hraw
    have hversion' : raw'.HasVersion n := hsame.symm.trans hversion
    rcases (hm.after history).2.changed hraw' with hold | ⟨k, hlower, -, hk⟩
    · obtain rfl := hm.unique hraw hold hversion hversion'
      cases hraw.symm.trans hold
      exact ⟨rfl, (throughout_leaves_iff hm hproper hraw).mpr hraw'⟩
    · have hnk := hversion'.unique hk
      omega
  · rintro ⟨rfl, hleaves⟩
    have hafter := (throughout_leaves_iff hm hproper hraw).mp hleaves
    cases hafter.symm.trans hraw'
    rfl

/-- No two writes of a history are under the same version. -/
theorem version_ne_of_writes {later : Operation} (hm : m.Versioned) (hop : op.IsProper m)
    (hwrites : op.Writes m key raw) (hlater : later.Writes (m.after (op :: rest)) other raw') :
    raw.metadataField "resourceVersion" ≠ raw'.metadataField "resourceVersion" := by
  intro hsame
  have hversioned := ((op.edit m).versioned_since hm).1
  have hle : _ ≤ (m.after (op :: rest)).versions := (hversioned.after rest).2.versions
  have hversions := (op.effect m hop).versions hwrites
  have hn := hwrites.hasVersion.unique (hsame.trans hlater.hasVersion)
  omega

/-! ### Uids -/

theorem identified_empty : Identified .empty := ⟨nofun, nofun⟩

theorem Identified.ne_fresh (hm : m.Identified) (hraw : m.get? key = some raw) {n : Nat}
    (hn : m.uids < n) : raw.metadataField "uid" ≠ .str (uidOf n) := by
  intro huid
  obtain ⟨k, hk, hissued⟩ := hm.issued hraw
  have hnk := uidOf_inj.mp (Json.str.inj (huid.symm.trans hissued))
  omega

theorem Identified.apply (hm : m.Identified) (hproper : op.IsProper m) :
    (op.apply m).Identified := by
  have heffect := op.effect m hproper
  have huids := heffect.uids
  -- a written document has the uid of the object that was there, or one that no object had
  have hnamed {other : ObjectKey} {found : Json} (hnames : Operation.Names m other found (op.apply m))
      {key : ObjectKey} {raw : Json} (hraw : m.get? key = some raw)
      (hsame : raw.metadataField "uid" = found.metadataField "uid") : key = other := by
    cases hnames with
    | same hlive huid => exact hm.unique hraw hlive (hsame.trans huid)
    | fresh _ huid hfresh =>
        exact absurd (hsame.trans huid) (hm.ne_fresh hraw (hfresh ▸ Nat.lt_succ_self _))
  refine ⟨fun {key raw} hraw => ?_, fun {key other raw raw'} hraw hraw' hsame => ?_⟩
  · rcases heffect.lineage.born hraw with ⟨live, hlive, huid⟩ | ⟨n, -, hn, huid⟩
    · obtain ⟨n, hn, hissued⟩ := hm.issued hlive
      exact ⟨n, Nat.le_trans hn huids, huid.symm.trans hissued⟩
    · exact ⟨n, hn, huid⟩
  · rcases heffect.get? hraw with hold | ⟨hwrites, hnames⟩
    · rcases heffect.get? hraw' with hold' | ⟨-, hnames'⟩
      · exact hm.unique hold hold' hsame
      · exact hnamed hnames' hold hsame
    · rcases heffect.get? hraw' with hold' | ⟨hwrites', -⟩
      · exact (hnamed hnames hold' hsame.symm).symm
      · exact hwrites.key_unique hwrites'

theorem Identified.after (hm : m.Identified) (hproper : Proper m history) :
    (m.after history).Identified ∧ Lineage m (m.after history) := by
  induction history generalizing m with
  | nil => exact ⟨hm, .refl m⟩
  | cons op rest ih =>
      obtain ⟨hop, hrest⟩ := hproper
      obtain ⟨hidentified, hlineage⟩ := ih (hm.apply hop) hrest
      exact ⟨hidentified, (op.effect m hop).lineage.trans hlineage⟩

theorem uid_of_spares (hproper : op.IsProper m) (hspares : Spares key m op)
    (hraw : m.get? key = some raw) : ∃ next, (op.apply m).get? key = some next ∧
      next.metadataField "uid" = raw.metadataField "uid" := by
  obtain ⟨next, hnext⟩ := Option.isSome_iff_exists.mp (hspares (Option.isSome_iff_exists.mpr ⟨_, hraw⟩))
  refine ⟨next, hnext, ?_⟩
  rcases (op.effect m hproper).get? hnext with hold | ⟨-, hnames⟩
  · cases hraw.symm.trans hold
    rfl
  · cases hnames with
    | same hlive huid =>
        cases hraw.symm.trans hlive
        exact huid
    | fresh hfree => cases hraw.symm.trans hfree

/-- Two documents of a history have the same uid just if they are of one object that was there all
along. -/
theorem uid_eq_iff (hm : m.Identified) (hproper : Proper m history) (hraw : m.get? key = some raw)
    (hraw' : (m.after history).get? other = some raw') :
    raw.metadataField "uid" = raw'.metadataField "uid" ↔
      key = other ∧ Throughout (Spares key) m history := by
  induction history generalizing m raw with
  | nil =>
      refine ⟨fun hsame => ⟨hm.unique hraw hraw' hsame, trivial⟩, ?_⟩
      rintro ⟨rfl, -⟩
      cases hraw.symm.trans hraw'
      rfl
  | cons op rest ih =>
      obtain ⟨hop, hrest⟩ := hproper
      have hnext := hm.apply hop
      constructor
      · intro hsame
        obtain ⟨n, hn, hissued⟩ := hm.issued hraw
        have hlineage := (op.effect m hop).lineage
        have hthere : (op.apply m).HasUid other (uidOf n) :=
          (hnext.after hrest).2.hasUid ⟨n, Nat.le_trans hn hlineage.uids, rfl⟩
            ⟨raw', hraw', hsame.symm.trans hissued⟩
        obtain ⟨live, hlive, huid⟩ := hlineage.hasUid ⟨n, hn, rfl⟩ hthere
        obtain rfl := hm.unique hraw hlive (hissued.trans huid.symm)
        obtain ⟨next, hget, huid'⟩ := hthere
        have hlater := (ih hnext hrest hget hraw').mp (huid'.trans (hissued.symm.trans hsame))
        exact ⟨rfl, fun _ => Option.isSome_iff_exists.mpr ⟨next, hget⟩, hlater.2⟩
      · rintro ⟨rfl, hspares, hlater⟩
        obtain ⟨next, hget, huid⟩ := uid_of_spares hop hspares hraw
        exact huid.symm.trans ((ih hnext hrest hget hraw').mpr ⟨rfl, hlater⟩)

/-- No two creations of a history give out the same uid. -/
theorem uid_ne_of_creates {object later reply : Resource} (hm : m.Identified)
    (hproper : Proper m (.call (.create object) :: rest)) (hok : (m.create object).1 = .ok reply) :
    (m.createdDocument object).metadataField "uid" ≠
      ((m.after (.call (.create object) :: rest)).createdDocument later).metadataField "uid" := by
  obtain ⟨hop, hrest⟩ := hproper
  have huids : ((Operation.call (.create object)).apply m).uids = m.uids + 1 :=
    (m.create_uids object).2 reply hok
  have hle : _ ≤ (m.after (.call (.create object) :: rest)).uids :=
    ((hm.apply hop).after hrest).2.uids
  rw [uid_createdDocument, uid_createdDocument]
  intro hsame
  have hn := uidOf_inj.mp (Json.str.inj hsame)
  omega

end Memory

end ClusterKeeper
