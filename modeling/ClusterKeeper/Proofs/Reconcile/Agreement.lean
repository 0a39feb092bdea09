import ClusterKeeper.Proofs.Reconcile.Reads
import ClusterKeeper.Proofs.Reconcile.Turns

/-!
Passes agree on one identity. While nobody else writes the Secret and the config map and nothing is
deleted, an identity once kept is kept forever, and the config map publishes no other.
-/

namespace ClusterKeeper

open Memory Reconcile

/-- The declaration and its children carry their keys, and none is being deleted. -/
def Memory.NamedUnmarked (ns name : String) (m : Memory) : Prop :=
  ∀ key raw, key.IsFamily ns name → m.get? key = some raw → raw.IsNamed key ∧ raw.IsUnmarked

/-- A config map that is there publishes the identity that the Secret keeps. -/
def Memory.Agrees (ns name : String) (m : Memory) : Prop :=
  ∀ raw, m.get? (Child.config.key ns name) = some raw →
    ∃ identity, m.identity? (Child.secret.key ns name) = some identity ∧
      raw.publishedPeerId? = some identity.peerId.text

/-- An identity that the Secret keeps is kept. -/
def Memory.Retains (ns name : String) (m m' : Memory) : Prop :=
  ∀ identity, m.identity? (Child.secret.key ns name) = some identity →
    m'.identity? (Child.secret.key ns name) = some identity

/-- What may happen besides the passes: failures come and go, and objects other than the Secret and
the config map change, so long as the declaration and its children carry their keys and none of them is
being deleted. -/
structure Memory.OutsideChange (ns name : String) (m m' : Memory) : Prop where
  edit : Edit m m'
  namedUnmarked : m'.NamedUnmarked ns name
  secret : m'.get? (Child.secret.key ns name) = m.get? (Child.secret.key ns name)
  config : m'.get? (Child.config.key ns name) = m.get? (Child.config.key ns name)

namespace Reconcile

/-- The state of a store while passes agree. -/
structure Agreed (ns name : String) (m : Memory) : Prop where
  versioned : Versioned m
  namedUnmarked : m.NamedUnmarked ns name
  agrees : m.Agrees ns name

structure Kept (ns name : String) (m m' : Memory) : Prop where
  since : Since m m'
  retains : m.Retains ns name m'

structure Storable (ns name : String) (m : Memory) (key : ObjectKey) (raw : Json) : Prop where
  named : raw.IsNamed key
  unmarked : raw.IsUnmarked
  secret : key = Child.secret.key ns name → ∃ identity, raw.identity? = some identity ∧
    ∀ kept, m.identity? (Child.secret.key ns name) = some kept → kept = identity
  config : key = Child.config.key ns name → ∃ identity,
    m.identity? (Child.secret.key ns name) = some identity ∧
      raw.publishedPeerId? = some identity.peerId.text

variable {ns name : String} {t : Trace} {m m' : Memory} {c : StoreCall} {key : ObjectKey}
  {desired object : Resource} {raw : Json}

theorem Kept.refl (m : Memory) : Kept ns name m m := ⟨.refl m, fun _ h => h⟩

theorem Kept.trans {m'' : Memory} (h : Kept ns name m m') (h' : Kept ns name m' m'') :
    Kept ns name m m'' :=
  ⟨h.since.trans h'.since, fun identity hm => h'.retains identity (h.retains identity hm)⟩

theorem Agreed.of_same (hm : Agreed ns name m) (hversioned : Versioned m') (hsince : Since m m')
    (hnames : m'.NamedUnmarked ns name)
    (hsecret : m'.get? (Child.secret.key ns name) = m.get? (Child.secret.key ns name))
    (hconfig : m'.get? (Child.config.key ns name) = m.get? (Child.config.key ns name)) :
    Agreed ns name m' ∧ Kept ns name m m' := by
  have hidentity := identity?_congr hsecret
  refine ⟨⟨hversioned, hnames, fun raw hraw => ?_⟩, hsince, fun identity h => ?_⟩
  · rw [hidentity]
    exact hm.agrees raw (hconfig ▸ hraw)
  · rw [hidentity]
    exact h

theorem Agreed.of_refuses (hm : Agreed ns name m) (h : Refuses m m') :
    Agreed ns name m' ∧ Kept ns name m m' := by
  refine hm.of_same (h.versioned hm.versioned) h.since (fun key raw hfamily hraw => ?_) (h.get? _)
    (h.get? _)
  exact hm.namedUnmarked key raw hfamily (h.get? key ▸ hraw)

/-- Putting a storable document under its key. -/
theorem Agreed.of_stores (hm : Agreed ns name m) (hstorable : Storable ns name m key raw)
    (h : Stores m key raw m') : Agreed ns name m' ∧ Kept ns name m m' := by
  have hnames : m'.NamedUnmarked ns name := by
    intro other found hfamily hfound
    by_cases heq : other = key
    · subst heq
      rw [h.get?_self] at hfound
      cases hfound
      exact ⟨hstorable.named, hstorable.unmarked⟩
    · exact hm.namedUnmarked other found hfamily (h.get?_of_ne heq ▸ hfound)
  have hdistinct : Child.config.key ns name ≠ Child.secret.key ns name := nofun
  by_cases hsecret : key = Child.secret.key ns name
  · subst hsecret
    obtain ⟨identity, hidentity, hsame⟩ := hstorable.secret rfl
    have hstored := (identity?_of_get? h.get?_self).trans hidentity
    refine ⟨⟨h.versioned hm.versioned, hnames, fun found hfound => ?_⟩, h.since, fun kept hkept => ?_⟩
    · obtain ⟨kept, hkept, hpublished⟩ := hm.agrees found (h.get?_of_ne hdistinct ▸ hfound)
      exact ⟨identity, hstored, hsame kept hkept ▸ hpublished⟩
    · rw [hsame kept hkept]
      exact hstored
  · have hidentity := identity?_congr (h.get?_of_ne (Ne.symm hsecret))
    refine ⟨⟨h.versioned hm.versioned, hnames, fun found hfound => ?_⟩, h.since, fun kept hkept => ?_⟩
    · rw [hidentity]
      by_cases hconfig : key = Child.config.key ns name
      · subst hconfig
        rw [h.get?_self] at hfound
        cases hfound
        exact hstorable.config rfl
      · exact hm.agrees found (h.get?_of_ne (Ne.symm hconfig) ▸ hfound)
    · rw [hidentity]
      exact hkept

theorem Agreed.of_create (hm : Agreed ns name m) (hr : desired.IsDesired key)
    (hstorable : m.get? key = none → ∀ raw reply, readAs key.kind raw = .ok reply →
      raw.Carries desired → Storable ns name m key raw) :
    Agreed ns name (m.create desired).2 ∧ Kept ns name m (m.create desired).2 := by
  rcases m.create_cases desired with ⟨-, -, h⟩ | ⟨found, reply, hfound, hget, hread, -, h⟩
  · exact hm.of_refuses h
  · cases hr.key.symm.trans hfound
    exact hm.of_stores (hstorable hget _ reply hread (hr.carries_createdDocument m)) h

theorem Agreed.of_patch (hm : Agreed ns name m) (hr : desired.IsDesired key)
    (hfamily : key.IsFamily ns name)
    (hstorable : ∀ raw reply, readAs key.kind raw = .ok reply → raw.Carries desired →
      Storable ns name m key raw) :
    Agreed ns name (m.patch key desired.mergePatch).2 ∧
      Kept ns name m (m.patch key desired.mergePatch).2 := by
  rcases m.patch_cases key desired.mergePatch with
    ⟨-, -, h⟩ | ⟨live, reply, m', hget, hread, -, h, hsettle⟩
  · exact hm.of_refuses h
  · have hcarries := hr.carries_patchedDocument m (hm.namedUnmarked key live hfamily hget).2
    rw [hsettle, settle_of_unmarked h.get?_self hcarries.unmarked]
    exact hm.of_stores (hstorable _ reply hread hcarries) h

/-- An update of a member of the family, by whatever makes the new document storable. -/
theorem Agreed.of_update (hm : Agreed ns name m)
    (hstorable : ∀ key live reply, object.key = .ok key → m.get? key = some live →
      isStale live object = false → readAs key.kind (m.replacedDocument live object) = .ok reply →
      Storable ns name m key (m.replacedDocument live object)) :
    Agreed ns name (m.update object).2 ∧ Kept ns name m (m.update object).2 := by
  rcases m.update_cases object with
    ⟨-, -, h⟩ | ⟨key, live, reply, m', hkey, hget, hstale, hread, -, h, hsettle⟩
  · exact hm.of_refuses h
  · have hdocument := hstorable key live reply hkey hget hstale hread
    rw [hsettle, settle_of_unmarked h.get?_self hdocument.unmarked]
    exact hm.of_stores hdocument h

theorem Agreed.of_applies (hm : Agreed ns name m) (hr : desired.IsDesired key)
    (hfamily : key.IsFamily ns name)
    (hstorable : ∀ raw reply, readAs key.kind raw = .ok reply → raw.Carries desired →
      Storable ns name m key raw) (h : Applies desired c) :
    Agreed ns name (perform c m).2 ∧ Kept ns name m (perform c m).2 := by
  cases h with
  | create => exact hm.of_create hr fun _ => hstorable
  | get hkey => exact ⟨hm, .refl m⟩
  | patch hkey =>
      cases hr.key.symm.trans hkey
      exact hm.of_patch hr hfamily hstorable

/-- What an act of a pass tells of the store from then on, while passes agree. -/
structure Tells (ns name : String) (act : Act) (m : Memory) : Prop where
  reads : Reads ns name act m
  declaration : ∀ ipfs, act = .called (.get ⟨.ipfs, ns, name⟩) (Except.ok (some ipfs)) →
    ∃ raw, readAs .ipfs raw = .ok ipfs ∧ raw.IsNamed ⟨.ipfs, ns, name⟩ ∧ raw.IsUnmarked
  named : ∀ secret,
    act = .called (.get (Child.secret.key ns name)) (Except.ok (some secret)) →
    ∃ raw, readAs .secret raw = .ok secret ∧ raw.IsNamed (Child.secret.key ns name)
  kept : ∀ secret identity,
    act = .called (.get (Child.secret.key ns name)) (Except.ok (some secret)) →
    persistedIdentity secret = some (.ok identity) →
    m.identity? (Child.secret.key ns name) = some identity
  drew : ∀ identity, act = .drew (.ok identity) → identity.IsGenerated
  stored : ∀ object reply identity, act = .called (.create object) (Except.ok reply) ∨
    act = .called (.update object) (Except.ok reply) → object.kind = .secret →
    persistedIdentity object = some (.ok identity) →
    m.identity? (Child.secret.key ns name) = some identity

theorem Tells.of_kept {act : Act} (h : Tells ns name act m) (hkept : Kept ns name m m') :
    Tells ns name act m' := by
  refine ⟨h.reads.since hkept.since, h.declaration, h.named, ?_, h.drew, ?_⟩
  · exact fun secret identity hact hidentity =>
      hkept.retains identity (h.kept secret identity hact hidentity)
  · exact fun object reply identity hact hkind hidentity =>
      hkept.retains identity (h.stored object reply identity hact hkind hidentity)

section Told

variable {ipfs live : Resource} {resolved : ResolvedIdentity} {state : FinalizerState}
  {identity : Identity}

theorem ReadDeclaration.isDeclared (htells : ∀ act ∈ t, Tells ns name act m)
    (h : ReadDeclaration ns name t ipfs state) : (Cluster.ofResource ipfs).IsDeclared ns name := by
  obtain ⟨raw, hread, hnamed, -⟩ := (htells _ h.1).declaration ipfs rfl
  exact Cluster.isDeclared_of_readAs hread hnamed

theorem Resolved.isUsable (htells : ∀ act ∈ t, Tells ns name act m)
    (h : Resolved ns name t resolved) : resolved.identity.IsUsable := by
  cases h with
  | persisted hread h => exact isUsable_of_persistedIdentity h
  | fresh hread h => exact ((htells _ h).drew _ rfl).isUsable
  | replacing hread hunusable h => exact ((htells _ h).drew _ rfl).isUsable

theorem persistedIdentity_secret {cluster : Cluster} (hdeclared : cluster.IsDeclared ns name)
    (husable : identity.IsUsable) :
    persistedIdentity (cluster.secret identity).resource = some (.ok identity) := by
  have hr := Cluster.isDesired_secret hdeclared identity
  exact persistedIdentity_of_satisfies husable (Json.satisfies_self hr.isPlain hr.canonical)

theorem persistedIdentity_replacementSecret {cluster : Cluster}
    (htells : ∀ act ∈ t, Tells ns name act m) (hread : ReadSecret ns name t (some live))
    (hdeclared : cluster.IsDeclared ns name) (husable : identity.IsUsable) :
    persistedIdentity (replacementSecret live (cluster.secret identity).resource) =
      some (.ok identity) := by
  obtain ⟨raw, hreadas, hnamed⟩ := (htells _ hread).named live rfl
  exact persistedIdentity_of_satisfies husable
    (satisfies_replacementSecret identity hdeclared hreadas hnamed)

/-- Once a pass stored the Secret, the Secret keeps the identity that the pass goes on with. -/
theorem Stored.identity? (htells : ∀ act ∈ t, Tells ns name act m)
    (hipfs : ReadDeclaration ns name t ipfs state) (hresolved : Resolved ns name t resolved)
    (h : Stored t ((Cluster.ofResource ipfs).secret resolved.identity).resource resolved) :
    m.identity? (Child.secret.key ns name) = some resolved.identity := by
  have hdeclared := hipfs.isDeclared htells
  have husable := hresolved.isUsable htells
  cases h with
  | persisted =>
      cases hresolved with
      | persisted hread hidentity => exact (htells _ hread).kept _ _ rfl hidentity
  | fresh h =>
      exact (htells _ h).stored _ _ _ (.inl rfl) rfl (persistedIdentity_secret hdeclared husable)
  | replacing h =>
      cases hresolved with
      | replacing hread =>
          obtain ⟨raw, hreadas, -⟩ := (htells _ hread).named _ rfl
          exact (htells _ h).stored _ _ _ (.inr rfl) (readAs_eq_ok_iff.mp hreadas).1
            (persistedIdentity_replacementSecret htells hread hdeclared husable)

theorem storable_secret {cluster : Cluster} {reply : Resource}
    (hdeclared : cluster.IsDeclared ns name)
    (husable : identity.IsUsable) (hread : readAs .secret raw = .ok reply)
    (h : raw.Carries (cluster.secret identity).resource)
    (hkept : ∀ kept, m.identity? (Child.secret.key ns name) = some kept → kept = identity) :
    Storable ns name m (Child.secret.key ns name) raw := by
  have hr := Cluster.isDesired_secret hdeclared identity
  have hidentity := Json.identity?_of_satisfies hr husable hread h.satisfies
  exact ⟨hr.isNamed h.satisfies, h.unmarked, fun _ => ⟨identity, hidentity, hkept⟩, nofun⟩

theorem storable_config {cluster : Cluster} (hdeclared : cluster.IsDeclared ns name)
    (h : raw.Carries (cluster.configConfigMap identity.peerId).resource)
    (hidentity : m.identity? (Child.secret.key ns name) = some identity) :
    Storable ns name m (Child.config.key ns name) raw := by
  have hr := Cluster.isDesired_children hdeclared identity .standard .config
  exact ⟨hr.isNamed h.satisfies, h.unmarked, nofun,
    fun _ => ⟨identity, hidentity, Json.publishedPeerId?_of_satisfies h.satisfies⟩⟩

theorem storable_other {child : Child} (hr : desired.IsDesired (child.key ns name))
    (hsecret : child ≠ .secret) (hconfig : child ≠ .config) (h : raw.Carries desired) :
    Storable ns name m (child.key ns name) raw :=
  ⟨hr.isNamed h.satisfies, h.unmarked, fun heq => absurd (Child.key_injective ns name heq) hsecret,
    fun heq => absurd (Child.key_injective ns name heq) hconfig⟩

end Told

theorem Agreed.of_adopt {ipfs : Resource} (hm : Agreed ns name m)
    (htells : ∀ act ∈ t, Tells ns name act m)
    (hipfs : ReadDeclaration ns name t ipfs .unmanaged) :
    Agreed ns name (m.update (ipfs.withFinalizer finalizerToken)).2 ∧
      Kept ns name m (m.update (ipfs.withFinalizer finalizerToken)).2 := by
  obtain ⟨raw, hread, hnamed, -⟩ := (htells _ hipfs.1).declaration ipfs rfl
  refine hm.of_update fun key live reply hkey hget _ _ => ?_
  rw [Resource.withFinalizer, Resource.key_setMetadata (by decide) (by decide),
    Resource.key_of_named hread hnamed] at hkey
  cases hkey
  obtain ⟨-, hunmarked⟩ := hm.namedUnmarked _ live .declaration hget
  have hsent : (ipfs.withFinalizer finalizerToken).key = .ok ⟨.ipfs, ns, name⟩ := by
    rw [Resource.withFinalizer, Resource.key_setMetadata (by decide) (by decide)]
    exact Resource.key_of_named hread hnamed
  exact ⟨isNamed_replacedDocument m hsent, isUnmarked_replacedDocument m _ hunmarked,
    nofun, nofun⟩

theorem not_terminating {ipfs : Resource} (htells : ∀ act ∈ t, Tells ns name act m) :
    ¬ ReadDeclaration ns name t ipfs .terminating := by
  rintro ⟨hread, hstate⟩
  obtain ⟨raw, hreadas, -, hunmarked⟩ := (htells _ hread).declaration ipfs rfl
  rw [FinalizerState.observe, (Resource.isTerminating_eq_false_iff hreadas).mpr hunmarked] at hstate
  split at hstate <;> simp_all

theorem Agreed.of_storesSecret {ipfs : Resource} {resolved : ResolvedIdentity}
    (hm : Agreed ns name m) (htells : ∀ act ∈ t, Tells ns name act m)
    (hipfs : ReadDeclaration ns name t ipfs .managed) (hresolved : Resolved ns name t resolved)
    (h : StoresSecret ((Cluster.ofResource ipfs).secret resolved.identity).resource resolved c) :
    Agreed ns name (perform c m).2 ∧ Kept ns name m (perform c m).2 := by
  have hdeclared := hipfs.isDeclared htells
  have husable := hresolved.isUsable htells
  have hr := Cluster.isDesired_secret hdeclared resolved.identity
  cases h with
  | persisted happlies =>
      -- the identity that was read is still kept, so writing it again changes nothing
      cases hresolved with
      | persisted hread hidentity =>
          have hkept := (htells _ hread).kept _ _ rfl hidentity
          refine hm.of_applies hr (.child .secret) (fun raw reply hreadas hcarries => ?_) happlies
          refine storable_secret hdeclared husable hreadas hcarries fun kept hstored => ?_
          exact Option.some.inj (hstored.symm.trans hkept)
  | fresh =>
      refine hm.of_create hr fun hnone raw reply hreadas hcarries => ?_
      refine storable_secret hdeclared husable hreadas hcarries fun kept hstored => ?_
      rw [identity?, hnone] at hstored
      cases hstored
  | @replacing identity live =>
      cases hresolved with
      | replacing hread hunusable =>
          refine hm.of_update fun key stored reply hkey hget hstale hreadas => ?_
          -- an update that is not stale finds what the pass read, and that was no identity
          obtain ⟨rfl, hlive⟩ := ((htells _ hread).reads.secret live rfl).of_not_stale hget hstale
          obtain ⟨hnamed, hunmarked⟩ := hm.namedUnmarked _ stored (.child .secret) hget
          have hcarries := hr.carries_replacedDocument m hunmarked
            (satisfies_replacementSecret identity hdeclared hlive hnamed)
          refine storable_secret hdeclared husable hreadas hcarries fun kept hstored => ?_
          rw [identity?_of_get? hget, Json.identity?_eq_some_iff hlive] at hstored
          exact absurd hstored (hunusable kept)

/-- No call of a pass disturbs the agreement. -/
theorem Agreed.of_makes (hm : Agreed ns name m) (htells : ∀ act ∈ t, Tells ns name act m)
    (h : Makes ns name t c) : Agreed ns name (perform c m).2 ∧ Kept ns name m (perform c m).2 := by
  cases h with
  | readDeclaration | readSecret => exact ⟨hm, .refl m⟩
  | adopt hipfs => exact hm.of_adopt htells hipfs
  | release hipfs => exact absurd hipfs (not_terminating htells)
  | secret hipfs hresolved h => exact hm.of_storesSecret htells hipfs hresolved h
  | config hipfs hresolved hstored h =>
      have hdeclared := hipfs.isDeclared htells
      have hidentity := hstored.identity? htells hipfs hresolved
      refine hm.of_applies (Cluster.isDesired_children hdeclared _ .standard .config)
        (.child .config) (fun raw reply _ hcarries => ?_) h
      exact storable_config hdeclared hcarries hidentity
  | @other ipfs resolved defaults child _ hipfs hresolved hsecret hconfig h =>
      have hr := Cluster.isDesired_children (hipfs.isDeclared htells) resolved.identity defaults child
      refine hm.of_applies hr (.child _) (fun raw reply _ hcarries => ?_) h
      exact storable_other hr hsecret hconfig hcarries

theorem identity?_of_created {identity : Identity} {reply : Resource}
    (htells : ∀ act ∈ t, Tells ns name act m) (h : Makes ns name t (.create object))
    (hreply : (m.create object).1 = .ok reply) (hkind : object.kind = .secret)
    (hidentity : persistedIdentity object = some (.ok identity)) :
    (m.create object).2.identity? (Child.secret.key ns name) = some identity := by
  rcases m.create_cases object with ⟨e, herror, -⟩ | ⟨key, read, hkey, -, hread, -, hstores⟩
  · cases hreply.symm.trans herror
  · have hkeykind := (Resource.named_of_key hkey).1.symm.trans hkind
    obtain ⟨ipfs, resolved, hipfs, hresolved, hsecret⟩ :=
      h.storesSecret (.create hkey) hkeykind fun act hact => (htells act hact).reads
    have hdeclared := hipfs.isDeclared htells
    have husable := hresolved.isUsable htells
    have hr := Cluster.isDesired_secret hdeclared resolved.identity
    have hobject : object = ((Cluster.ofResource ipfs).secret resolved.identity).resource := by
      cases hsecret with
      | persisted happlies => cases happlies; rfl
      | fresh => rfl
    subst hobject
    cases hkey.symm.trans hr.key
    rw [persistedIdentity_secret hdeclared husable] at hidentity
    cases hidentity
    rw [identity?_of_get? hstores.get?_self]
    exact Json.identity?_of_satisfies hr husable hread (hr.carries_createdDocument m).satisfies

theorem identity?_of_updated {identity : Identity} {reply : Resource} (hm : Agreed ns name m)
    (htells : ∀ act ∈ t, Tells ns name act m) (h : Makes ns name t (.update object))
    (hreply : (m.update object).1 = .ok reply) (hkind : object.kind = .secret)
    (hidentity : persistedIdentity object = some (.ok identity)) :
    (m.update object).2.identity? (Child.secret.key ns name) = some identity := by
  rcases m.update_cases object with
    ⟨e, herror, -⟩ | ⟨key, stored, read, m', hkey, hget, hstale, hread, -, hstores, hsettle⟩
  · cases hreply.symm.trans herror
  · have hkeykind := (Resource.named_of_key hkey).1.symm.trans hkind
    obtain ⟨ipfs, resolved, hipfs, hresolved, hsecret⟩ :=
      h.storesSecret (.update hkey) hkeykind fun act hact => (htells act hact).reads
    have hdeclared := hipfs.isDeclared htells
    have husable := hresolved.isUsable htells
    have hr := Cluster.isDesired_secret hdeclared resolved.identity
    cases hsecret with
    | persisted happlies => nomatch happlies
    | @replacing new live =>
        cases hresolved with
        | replacing hseen hunusable =>
            rw [persistedIdentity_replacementSecret htells hseen hdeclared husable] at hidentity
            cases hidentity
            obtain ⟨rfl, hlive⟩ := ((htells _ hseen).reads.secret live rfl).of_not_stale hget hstale
            obtain ⟨hnamed, hunmarked⟩ := hm.namedUnmarked _ stored (.child .secret) hget
            have hcarries := hr.carries_replacedDocument m hunmarked
              (satisfies_replacementSecret new hdeclared hlive hnamed)
            rw [hsettle, settle_of_unmarked hstores.get?_self hcarries.unmarked,
              identity?_of_get? hstores.get?_self]
            exact Json.identity?_of_satisfies hr husable hread hcarries.satisfies

/-- What a call of a pass tells once it is answered. -/
theorem Agreed.tells_called (hm : Agreed ns name m) (htells : ∀ act ∈ t, Tells ns name act m)
    (h : Makes ns name t c) : Tells ns name (.called c (perform c m).1) (perform c m).2 := by
  refine ⟨reads_called hm.versioned ns name c, fun ipfs hact => ?_, fun secret hact => ?_,
    fun secret identity hact hidentity => ?_, nofun, fun object reply identity hact hkind hidentity => ?_⟩
  · obtain ⟨raw, hget, hread⟩ := exists_of_called_get hact
    exact ⟨raw, hread, hm.namedUnmarked _ raw .declaration hget⟩
  · obtain ⟨raw, hget, hread⟩ := exists_of_called_get hact
    exact ⟨raw, hread, (hm.namedUnmarked _ raw (.child .secret) hget).1⟩
  · obtain ⟨raw, hget, hread⟩ := exists_of_called_get hact
    refine (hm.of_makes htells h).2.retains identity ?_
    exact (identity?_of_get? hget).trans ((Json.identity?_eq_some_iff hread).mpr hidentity)
  · rcases hact with hact | hact
    · injection hact with hcall hreply
      subst hcall
      exact identity?_of_created htells h (eq_of_heq hreply) hkind hidentity
    · injection hact with hcall hreply
      subst hcall
      exact identity?_of_updated hm htells h (eq_of_heq hreply) hkind hidentity

theorem Agreed.of_outsideChange (hm : Agreed ns name m) (h : OutsideChange ns name m m') :
    Agreed ns name m' ∧ Kept ns name m m' := by
  obtain ⟨hversioned, hsince⟩ := h.edit.versioned_since hm.versioned
  exact hm.of_same hversioned hsince h.namedUnmarked h.secret h.config

/-- What an identity source may answer: a generated identity, or an error. -/
def lawfulAnswer : Except IdentityError Identity → Prop
  | .ok identity => identity.IsGenerated
  | .error _ => True

def undisturbed (ns name : String) : Surroundings := ⟨OutsideChange ns name, lawfulAnswer⟩

/-- How passes share the store while they are undisturbed. -/
def agreement (ns name : String) : Protocol ns name (undisturbed ns name) where
  inv := Agreed ns name
  keeps := Kept ns name
  tells := Tells ns name
  refl := .refl
  trans := .trans
  stable := fun hkept h => h.of_kept hkept
  call := fun hm htells hmakes => ⟨hm.of_makes htells hmakes, hm.tells_called htells hmakes⟩
  drew := fun hanswer _ =>
    ⟨⟨nofun, nofun⟩, nofun, nofun, nofun, fun _ hact => by cases hact; exact hanswer,
      fun _ _ _ hact => by rcases hact with hact | hact <;> cases hact⟩
  reported := fun _ _ =>
    ⟨⟨nofun, nofun⟩, nofun, nofun, nofun, nofun,
      fun _ _ _ hact => by rcases hact with hact | hact <;> cases hact⟩
  edit := fun hedit hm => hm.of_outsideChange hedit

/-- However passes interleave, fail and are dropped: an identity that the Secret keeps at some time
is kept ever after, and a config map that is there publishes the identity of the Secret. -/
theorem identity_agreement {start w w' : World} (hstart : start.threads = [])
    (hreachable : start.memory.Reachable) (hnames : start.memory.NamedUnmarked ns name)
    (hconfig : start.memory.get? (Child.config.key ns name) = none)
    (hrun : Relation.ReflTransGen (World.Step ns name (undisturbed ns name)) start w)
    (hrun' : Relation.ReflTransGen (World.Step ns name (undisturbed ns name)) w w') :
    w.memory.Agrees ns name ∧ w.memory.Retains ns name w'.memory := by
  have hagrees : start.memory.Agrees ns name := by
    intro raw hraw
    rw [hconfig] at hraw
    cases hraw
  have hworld : (agreement ns name).WorldInvariant start :=
    ⟨⟨hreachable.versioned, hnames, hagrees⟩, by rw [hstart]; nofun⟩
  have hw := (hworld.run hrun).1
  exact ⟨hw.inv.agrees, (hw.run hrun').2.retains⟩

theorem namedUnmarked_declared : declared.NamedUnmarked "default" "ipfs" := by
  intro key raw _ hraw
  obtain ⟨rfl, rfl⟩ := eq_of_get?_declared hraw
  exact ⟨isNamed_declared, isUnmarked_declared⟩

theorem undisturbed_answers (source : IdentitySource) :
    (undisturbed ns name).answers source.next.1 := by
  cases h : source.next.1 with
  | error e => trivial
  | ok identity => exact IdentitySource.isGenerated_of_next h

/-- Two first passes, both of which found no Secret, up to when the first one stored its identity. -/
def overlapping : List (Task (Except ReconcileError Outcome)) × Engine :=
  Task.turns Engine.handler [0, 0, 0, 1, 1, 1, 0]
    ([.standard, .standard].map fun defaults => .ready (reconcile defaults "default" "ipfs"))
    { Engine.start (.ofSeed 7) .standard with memory := .declared }

/-- The second one could not store its own, and the first one published its identity. -/
def overlapped : List (Task (Except ReconcileError Outcome)) × Engine :=
  Task.turns Engine.handler [1, 1, 0, 0] overlapping.1 overlapping.2

theorem isSome_overlapping :
    (overlapping.2.memory.identity? (Child.secret.key "default" "ipfs")).isSome = true ∧
      (overlapped.2.memory.get? (Child.config.key "default" "ipfs")).isSome = true := by
  decide +kernel

theorem identity_agreement_declared : ∃ w w' : World, ∃ identity raw,
    Relation.ReflTransGen (World.Step "default" "ipfs" (undisturbed "default" "ipfs")) w w' ∧
    w.memory.identity? (Child.secret.key "default" "ipfs") = some identity ∧
    w'.memory.identity? (Child.secret.key "default" "ipfs") = some identity ∧
    w'.memory.get? (Child.config.key "default" "ipfs") = some raw ∧
    raw.publishedPeerId? = some identity.peerId.text := by
  obtain ⟨w, w', hrun, hrun', hw, hw', -⟩ := Task.exists_run_schedules "default" "ipfs"
    undisturbed_answers [.standard, .standard] [0, 0, 0, 1, 1, 1, 0]
    { Engine.start (.ofSeed 7) .standard with memory := .declared }
    (show _ = overlapping from rfl) .refl (show _ = overlapped from rfl)
  obtain ⟨hstored, hpublished⟩ := isSome_overlapping
  rw [← hw] at hstored
  rw [← hw'] at hpublished
  obtain ⟨identity, hidentity⟩ := Option.isSome_iff_exists.mp hstored
  obtain ⟨raw, hraw⟩ := Option.isSome_iff_exists.mp hpublished
  have hretains :=
    (identity_agreement rfl reachable_declared namedUnmarked_declared rfl hrun hrun').2
  have hagrees :=
    (identity_agreement rfl reachable_declared namedUnmarked_declared rfl (hrun.trans hrun') .refl).1
  have hkept := hretains identity hidentity
  obtain ⟨other, hother, hpeer⟩ := hagrees raw hraw
  cases hother.symm.trans hkept
  exact ⟨w, w', identity, raw, hrun', hidentity, hkept, hraw, hpeer⟩

end Reconcile

end ClusterKeeper
