import ClusterKeeper.Proofs.Program.Contract
import ClusterKeeper.Proofs.Reconcile.Drift

/-!
The stages of a pass that has the store to itself, but for failures: it looks for an identity, then
stores the six children one after the other. What a child comes to depends on how it was found and on
failures for its kind; only the config map minds what became of another, the Secret.
-/

namespace ClusterKeeper

open Memory Reconcile

variable {ns name : String} {m m' : Memory} {cluster : Cluster} {identity : Identity}
  {live : Resource} {raw : Json} {t t' : Trace}

namespace Memory

theorem isSound_replacement (m : Memory) (identity : Identity) (hdeclared : cluster.IsDeclared ns name)
    (hsound : raw.IsSound (Child.secret.key ns name)) (hunmarked : raw.IsUnmarked)
    (hread : readAs .secret raw = .ok live) :
    (m.replacedDocument raw (replacementSecret live (cluster.secret identity).resource)).IsSound
      (Child.secret.key ns name) := by
  have hr := Cluster.isDesired_secret hdeclared identity
  have hlive : live.body.isCanonical = true :=
    Schema.isCanonical_of_read (by decide) hsound.canonical (readAs_eq_ok_iff.mp hread).2
  have hcarries := hr.carries_replacedDocument m hunmarked
    (satisfies_replacementSecret identity hdeclared hread hsound.named)
  exact ⟨isCanonical_replacedDocument m hunmarked hsound.canonical
      (isCanonical_replacementSecret hlive hr.canonical),
    readable_replacedDocument m hsound.readable
      (readable_replacementSecret identity hdeclared hread),
    hr.isNamed hcarries.satisfies⟩

/-- The replacement of a Secret is stored if nothing was written since the Secret was read. -/
theorem WellFormed.update {reply : Except StoreError Resource} (hm : m.WellFormed ns name)
    (hdeclared : cluster.IsDeclared ns name)
    (hget : m.get? (Child.secret.key ns name) = some raw) (hread : readAs .secret raw = .ok live)
    (h : m.update (replacementSecret live (cluster.secret identity).resource) = (reply, m')) :
    (∃ e, reply = .error e ∧ m'.objects = m.objects ∧ m.failure? .update .secret ≠ none) ∨
      ∃ updated, reply = .ok updated ∧ m'.get? (Child.secret.key ns name) =
          some (m.replacedDocument raw (replacementSecret live (cluster.secret identity).resource)) ∧
        Establishes ns name m (Child.secret.key ns name) (cluster.secret identity).resource m' := by
  have hsound := hm.sound _ raw hget
  have hunmarked := hm.unmarked .secret raw hget
  have hr := Cluster.isDesired_secret hdeclared identity
  have hkey : (replacementSecret live (cluster.secret identity).resource).key =
      .ok (Child.secret.key ns name) :=
    replacementSecret_key.trans (Resource.key_of_named hread hsound.named)
  have hstored := isSound_replacement m identity hdeclared hsound hunmarked hread
  have hcases := m.update_cases (replacementSecret live (cluster.secret identity).resource)
  rw [h] at hcases
  rcases hcases with ⟨e, rfl, hrefused⟩ |
    ⟨key, found, updated, m₁, hfound, hfoundget, -, -, rfl, hstores, hsettle⟩
  · refine .inl ⟨e, rfl, hrefused.objects, fun hfailure => ?_⟩
    have hkind : (replacementSecret live (cluster.secret identity).resource).kind = .secret :=
      (readAs_eq_ok_iff.mp hread).1
    obtain ⟨updated, hreadas⟩ := hstored.exists_read
    have hupdated := update_of_present (hkind.symm ▸ hfailure) hkey hget
      (isStale_replacementSecret hread) hreadas
    rw [h] at hupdated
    cases hupdated
  · cases hkey.symm.trans hfound
    cases hget.symm.trans hfoundget
    have hcarries := hr.carries_replacedDocument m hunmarked
      (satisfies_replacementSecret identity hdeclared hread hsound.named)
    rw [settle_of_unmarked hstores.get?_self hcarries.unmarked] at hsettle
    cases hsettle
    exact .inr ⟨updated, rfl, hstores.get?_self, hm.establishes hr hstores hstored hcarries⟩

end Memory

def Child.title : Child → String
  | serviceAccount => "service account"
  | service => "service"
  | scripts => "scripts configmap"
  | config => "config configmap"
  | secret => "config secret"
  | statefulSet => "statefulset"

theorem Child.title_injective : Function.Injective title := by
  intro a b h
  cases a <;> cases b <;> first | rfl | exact absurd h (by decide)

namespace Reconcile

variable {allowed : List Failure → Prop} {answers : Except IdentityError Identity → Prop}
  {resolved : ResolvedIdentity} {child : Child}

/-! ### Reports -/

def Failed (child : Child) (t : Trace) : Prop :=
  ∃ e, Event.warned (.childNotApplied child.title e) ∈ t.reports

theorem failed_congr (h : t'.reports = t.reports) (child : Child) :
    Failed child t' ↔ Failed child t := by
  rw [Failed, h, Failed]

theorem not_failed_nil (child : Child) : ¬ Failed child [] := by
  rintro ⟨e, he⟩
  cases he

theorem failed_called (c : StoreCall) (reply : c.Reply) :
    Failed child (.called c reply :: t) ↔ Failed child t := Iff.rfl

theorem failed_drew (answer : Except IdentityError Identity) :
    Failed child (.drew answer :: t) ↔ Failed child t := Iff.rfl

@[simp] theorem failed_recorded (record : Record) :
    Failed child (.reported (.recorded record) :: t) ↔ Failed child t := by
  simp [Failed, Trace.reports]

@[simp] theorem failed_warned (warning : Warning) :
    Failed child (.reported (.warned warning) :: t) ↔
      (∃ e, warning = .childNotApplied child.title e) ∨ Failed child t := by
  simp [Failed, Trace.reports, exists_or, eq_comm]

theorem failed_warned_other {warning : Warning} (h : ∀ what e, warning ≠ .childNotApplied what e) :
    Failed child (.reported (.warned warning) :: t) ↔ Failed child t :=
  (failed_warned warning).trans (or_iff_right fun ⟨e, he⟩ => h _ e he)

theorem meets_recordApply {env : Surroundings} {post : Bool → Trace → Memory → Prop}
    (child : Child) (kind : Kind) {result : Except StoreError ApplyOutcome}
    (h : ∀ t', (∀ other, Failed other t' ↔ Failed other t ∨ other = child ∧ result.isOk = false) →
      post result.isOk t' m) :
    (recordApply kind child.title result).Meets env post t m := by
  cases result with
  | error e =>
      refine h _ fun other => ?_
      simp [Except.isOk, Except.toBool, Child.title_injective.eq_iff, or_comm, eq_comm]
  | ok outcome =>
      refine h _ fun other => ?_
      simp [Except.isOk, Except.toBool]

/-! ### The Secret -/

/-- How the identity that a pass goes on with relates to the store and to what the source answers. -/
inductive ResolvedAt (ns name : String) (answers : Except IdentityError Identity → Prop)
    (m : Memory) : ResolvedIdentity → Prop where
  | persisted {identity : Identity}
      (h : m.identity? (Child.secret.key ns name) = some identity) :
    ResolvedAt ns name answers m (.persisted identity)
  | fresh {identity : Identity} (hanswer : answers (.ok identity))
      (h : m.get? (Child.secret.key ns name) = none) :
    ResolvedAt ns name answers m (.fresh identity)
  | replacing {identity : Identity} {live : Resource} {raw : Json}
      (hanswer : answers (.ok identity)) (hget : m.get? (Child.secret.key ns name) = some raw)
      (hread : readAs .secret raw = .ok live) (hunusable : raw.identity? = none) :
    ResolvedAt ns name answers m (.replacing identity live)

/-- A usable identity is the one that a pass goes on with. -/
theorem ResolvedAt.eq_of_identity? (h : ResolvedAt ns name answers m resolved)
    (hidentity : m.identity? (Child.secret.key ns name) = some identity) :
    resolved = .persisted identity := by
  cases h with
  | persisted h => exact congrArg _ (Option.some.inj (h.symm.trans hidentity))
  | fresh _ h =>
      rw [identity?, h] at hidentity
      cases hidentity
  | replacing _ hget _ hunusable =>
      rw [identity?_of_get? hget, hunusable] at hidentity
      cases hidentity

theorem ResolvedAt.of_objects (h : ResolvedAt ns name answers m resolved)
    (hsame : m'.objects = m.objects) : ResolvedAt ns name answers m' resolved := by
  have hget := get?_of_objects hsame (Child.secret.key ns name)
  cases h with
  | persisted h => exact .persisted ((identity?_congr hget).trans h)
  | fresh hanswer h => exact .fresh hanswer (hget.trans h)
  | replacing hanswer h hread hunusable =>
      exact .replacing hanswer (hget.trans h) hread hunusable

/-- The store and one answer of the source leave a pass no choice. -/
theorem ResolvedAt.unique {answer : Except IdentityError Identity} {other : ResolvedIdentity}
    (h : ResolvedAt ns name (· = answer) m resolved)
    (hother : ResolvedAt ns name (· = answer) m other) :
    resolved = other := by
  cases h with
  | persisted h => exact (hother.eq_of_identity? h).symm
  | fresh hanswer hnone =>
      cases hother with
      | persisted h =>
          rw [identity?, hnone] at h
          cases h
      | fresh hanswer' =>
          cases hanswer.trans hanswer'.symm
          rfl
      | replacing _ hget => cases hnone.symm.trans hget
  | replacing hanswer hget hread hunusable =>
      cases hother with
      | persisted h =>
          rw [identity?_of_get? hget, hunusable] at h
          cases h
      | fresh _ hnone => cases hnone.symm.trans hget
      | replacing hanswer' hget' hread' =>
          cases hanswer.trans hanswer'.symm
          cases hget.symm.trans hget'
          cases hread.symm.trans hread'
          rfl

/-- What storing the Secret makes of what is stored under its key, but for uid and version. -/
def storedSecret (desired : Resource) (found : Option Json) : ResolvedIdentity → Json
  | .replacing _ live =>
    (updatedDocument (found.getD .null) (replacementSecret live desired)).unstamped
  | _ => desired.applied found

/-- Each way to store the Secret works where the pass chooses it. -/
theorem effect_storeSecret {answered : Except IdentityError Identity → Prop}
    (hm : m.WellFormed ns name) (hdeclared : cluster.IsDeclared ns name)
    (h : ResolvedAt ns name answered m resolved) :
    (storeSecret (cluster.secret resolved.identity).resource resolved).Meets
      (isolated allowed answers)
      (fun result t' m' => Effect ns name allowed m (Child.secret.key ns name)
        (cluster.secret resolved.identity).resource
        (storedSecret (cluster.secret resolved.identity).resource
          (m.get? (Child.secret.key ns name)) resolved) result m' ∧ t'.reports = t.reports) t m := by
  have hr := Cluster.isDesired_secret hdeclared resolved.identity
  cases h with
  | persisted h => exact effect_createOrPatch hm hr
  | fresh _ hnone =>
      refine Program.meets_create fun m₁ hrely reply m₂ hcreate => ?_
      obtain ⟨hsame₁, hfailures⟩ := isolated_rely hrely
      rcases (hm.of_objects hsame₁).create hr hcreate with
        ⟨e, rfl, hsame₂⟩ | ⟨created, rfl, -, hraw, hestablishes⟩
      · refine ⟨.failed (hsame₂.trans hsame₁) fun hexempts => ?_, rfl⟩
        obtain ⟨-, raw, hraw⟩ := exists_of_create_error hr (hfailures _ _ (hexempts _)) hcreate
        rw [get?_of_objects hsame₁, hnone] at hraw
        cases hraw
      · rw [hnone]
        exact ⟨.established (hestablishes.of_before hsame₁) hraw (unstamped_createdDocument _ _), rfl⟩
  | replacing _ hget hread _ =>
      refine Program.meets_update fun m₁ hrely reply m₂ hupdate => ?_
      obtain ⟨hsame₁, hfailures⟩ := isolated_rely hrely
      have hget₁ := (get?_of_objects hsame₁ _).trans hget
      rcases (hm.of_objects hsame₁).update hdeclared hget₁ hread hupdate with
        ⟨e, rfl, hsame₂, hfailed⟩ | ⟨updated, rfl, hraw, hestablishes⟩
      · exact ⟨.failed (hsame₂.trans hsame₁) fun hexempts => hfailed (hfailures _ _ (hexempts _)), rfl⟩
      · rw [hget]
        exact ⟨.established (hestablishes.of_before hsame₁) hraw (unstamped_stamped _ _), rfl⟩

/-! ### The children -/

/-- What a pass makes of a child, but for uid and version. -/
def expected (ns name : String) (resolved : ResolvedIdentity) (children : Children) (m : Memory) :
    Child → Json
  | .secret =>
    storedSecret children.secret.resource (m.get? (Child.secret.key ns name)) resolved
  | child => (children.resource child).applied (m.get? (child.key ns name))

theorem expected_congr (hsame : m'.objects = m.objects) (resolved : ResolvedIdentity)
    (children : Children) :
    expected ns name resolved children m' = expected ns name resolved children m := by
  funext child
  cases child with
  | secret => exact congrArg (storedSecret _ · resolved) (get?_of_objects hsame _)
  | _ => exact congrArg (Resource.applied _) (get?_of_objects hsame _)

/-- How far a pass came with the children: which it tried to store, and whether that worked. -/
structure Progress (ns name : String) (children : Children) (allowed : List Failure → Prop)
    (made : Child → Json) (start : Memory) (before : Trace) (tried : List (Child × Bool))
    (t : Trace) (m : Memory) : Prop where
  wellFormed : m.WellFormed ns name
  declaration : m.get? ⟨.ipfs, ns, name⟩ = start.get? ⟨.ipfs, ns, name⟩
  holds : ∀ child, (child, true) ∈ tried → m.Holds (child.key ns name) (children.resource child)
  stored : ∀ child, (child, true) ∈ tried →
    (m.get? (child.key ns name)).map Json.unstamped = some (made child)
  untouched : ∀ child, (child, true) ∉ tried →
    m.get? (child.key ns name) = start.get? (child.key ns name)
  blamed : ∀ child, (child, false) ∈ tried → ¬ ∀ op, Exempts allowed op (child.key ns name).kind
  told : ∀ child, Failed child t ↔ Failed child before ∨ (child, false) ∈ tried

variable {children : Children} {made : Child → Json} {start : Memory} {before : Trace}
  {tried : List (Child × Bool)} {result : Except StoreError ApplyOutcome}

/-- A child that could not be stored changes nothing. -/
theorem Progress.failed (h : Progress ns name children allowed made start before tried t m)
    (hsame : m'.objects = m.objects)
    (hblamed : ¬ ∀ op, Exempts allowed op (child.key ns name).kind)
    (htold : ∀ other, Failed other t' ↔ Failed other t ∨ other = child) :
    Progress ns name children allowed made start before ((child, false) :: tried) t' m' where
  wellFormed := h.wellFormed.of_objects hsame
  declaration := (get?_of_objects hsame _).trans h.declaration
  holds other hother :=
    (h.holds other ((List.mem_cons.mp hother).resolve_left nofun)).congr (get?_of_objects hsame _)
  stored other hother := by
    rw [get?_of_objects hsame]
    exact h.stored other ((List.mem_cons.mp hother).resolve_left nofun)
  untouched other hother := by
    rw [get?_of_objects hsame]
    exact h.untouched other fun htail => hother (List.mem_cons_of_mem _ htail)
  blamed other hother := by
    rcases List.mem_cons.mp hother with hhead | htail
    · cases hhead
      exact hblamed
    · exact h.blamed other htail
  told other := by
    rw [htold, h.told, List.mem_cons, Prod.mk.injEq, and_iff_left rfl, or_assoc,
      or_comm (b := other = child)]

/-- A child that was stored leaves the others alone. -/
theorem Progress.established (h : Progress ns name children allowed made start before tried t m)
    (hnew : ∀ worked, (child, worked) ∉ tried)
    (hestablishes : Establishes ns name m (child.key ns name) (children.resource child) m')
    (hmade : (m'.get? (child.key ns name)).map Json.unstamped = some (made child))
    (htold : ∀ other, Failed other t' ↔ Failed other t) :
    Progress ns name children allowed made start before ((child, true) :: tried) t' m' := by
  have hframe {other : Child} (hne : other ≠ child) :
      m'.get? (other.key ns name) = m.get? (other.key ns name) :=
    hestablishes.frame _ fun heq => hne (Child.key_injective ns name heq)
  have hne {other : Child} {worked : Bool} (htried : (other, worked) ∈ tried) : other ≠ child := by
    rintro rfl
    exact hnew worked htried
  refine ⟨hestablishes.wellFormed, ?_, fun other hother => ?_, fun other hother => ?_,
    fun other hother => ?_, fun other hother => ?_, fun other => ?_⟩
  · refine (hestablishes.frame _ fun heq => ?_).trans h.declaration
    exact child.key_kind_ne ns name (congrArg ObjectKey.kind heq.symm)
  · rcases List.mem_cons.mp hother with hhead | htail
    · cases hhead
      exact hestablishes.holds
    · exact (h.holds other htail).congr (hframe (hne htail))
  · rcases List.mem_cons.mp hother with hhead | htail
    · cases hhead
      exact hmade
    · rw [hframe (hne htail)]
      exact h.stored other htail
  · rw [hframe fun heq => hother (heq ▸ List.mem_cons_self)]
    exact h.untouched other fun htail => hother (List.mem_cons_of_mem _ htail)
  · exact h.blamed other ((List.mem_cons.mp hother).resolve_left nofun)
  · rw [htold, h.told, List.mem_cons, or_iff_right (a := (other, false) = (child, true)) nofun]

theorem Progress.attempt (h : Progress ns name children allowed made start before tried t m)
    (hnew : ∀ worked, (child, worked) ∉ tried)
    (heffect : Effect ns name allowed m (child.key ns name) (children.resource child) (made child)
      result m')
    (htold : ∀ other, Failed other t' ↔ Failed other t ∨ other = child ∧ result.isOk = false) :
    Progress ns name children allowed made start before ((child, result.isOk) :: tried) t' m' := by
  cases heffect with
  | failed hsame hblamed =>
      exact h.failed hsame hblamed fun other => (htold other).trans (or_congr_right (and_iff_left rfl))
  | established hestablishes hget hraw =>
      refine h.established hnew hestablishes ?_ fun other =>
        (htold other).trans (or_iff_left fun hfailed => ?_)
      · rw [hget, Option.map_some, hraw]
      · exact absurd hfailed.2.symm Bool.false_ne_true

theorem meets_applyChild (h : Progress ns name children allowed made start before tried t m)
    (hr : (children.resource child).IsDesired (child.key ns name))
    (hnew : ∀ worked, (child, worked) ∉ tried)
    (hmade : made child = (children.resource child).applied (start.get? (child.key ns name))) :
    (applyChild (children.resource child) child.title).Meets (isolated allowed answers)
      (fun worked t' m' => Progress ns name children allowed made start before
        ((child, worked) :: tried) t' m') t m := by
  refine (effect_createOrPatch h.wellFormed hr).bind fun result t₁ m₁ heffect => ?_
  obtain ⟨heffect, hreports⟩ := heffect
  rw [h.untouched child (hnew true), ← hmade] at heffect
  refine meets_recordApply child _ fun t₂ htold => h.attempt hnew heffect fun other => ?_
  rw [htold, failed_congr hreports]

/-- The config map waits for the Secret, and is not tried if the Secret is not stored. -/
theorem meets_applyConfig {secret : Bool}
    (h : Progress ns name children allowed made start before [(.secret, secret)] t m)
    (hr : (children.resource .config).IsDesired (Child.config.key ns name))
    (hmade : made .config =
      (children.resource .config).applied (start.get? (Child.config.key ns name))) :
    (applyConfig secret (children.resource .config)).Meets (isolated allowed answers)
      (fun config t' m' => Progress ns name children allowed made start before
        (if secret then [(.config, config), (.secret, true)] else [(.secret, false)]) t' m') t m := by
  cases secret with
  | false => exact h
  | true => exact meets_applyChild h hr (by simp) hmade

/-- All children were tried, but for the config map if the Secret was not stored, and the pass is done
if all of that worked. -/
structure Complete (tried : List (Child × Bool)) (ending : Ending) : Prop where
  covers : ∀ child, (child = .config → (.secret, false) ∉ tried) →
    (child, true) ∈ tried ∨ (child, false) ∈ tried
  once : ∀ child, (child, false) ∈ tried → (child, true) ∉ tried
  waits : (.secret, false) ∈ tried → ∀ worked, (.config, worked) ∉ tried
  ending : ending = if tried.all Prod.snd then .done else .requeue .child

theorem Complete.worked {ending : Ending} (h : Complete tried ending) (hdone : ending = .done)
    (child : Child) : (child, false) ∉ tried := by
  intro hfailed
  have hall : tried.all Prod.snd = true := by
    by_contra hnot
    cases hdone.symm.trans (h.ending.trans (if_neg hnot))
  exact absurd (List.all_eq_true.mp hall _ hfailed) Bool.false_ne_true

theorem Complete.done {ending : Ending} (h : Complete tried ending)
    (hworked : ∀ child, (child, false) ∉ tried) : ending = .done := by
  refine h.ending.trans (if_pos (List.all_eq_true.mpr ?_))
  rintro ⟨child, _ | _⟩ htried
  · exact absurd htried (hworked child)
  · rfl

theorem Complete.requeue {ending : Ending} (h : Complete tried ending)
    (hfailed : (child, false) ∈ tried) : ending = .requeue .child :=
  h.ending.trans (if_neg fun hall => absurd (List.all_eq_true.mp hall _ hfailed) Bool.false_ne_true)

theorem complete (secret config account service scripts statefulSet : Bool) :
    Complete ((.statefulSet, statefulSet) :: (.scripts, scripts) :: (.service, service) ::
      (.serviceAccount, account) ::
      if secret then [(.config, config), (.secret, true)] else [(.secret, false)])
      (if secret && config && account && service && scripts && statefulSet then .done
        else .requeue .child) := by
  refine ⟨fun child => ?_, fun child => ?_, ?_, ?_⟩
  · cases child <;> decide +revert
  · cases child <;> decide +revert
  · decide +revert
  · decide +revert

theorem meets_applyChildren (hm : m.WellFormed ns name) (hdeclared : cluster.IsDeclared ns name)
    (defaults : WorkloadDefaults) {answered : Except IdentityError Identity → Prop}
    (hresolved : ResolvedAt ns name answered m resolved) :
    (applyChildren resolved (cluster.children resolved.identity defaults)).Meets
      (isolated allowed answers)
      (fun ending t' m' => ∃ tried, Complete tried ending ∧
        Progress ns name (cluster.children resolved.identity defaults) allowed
          (expected ns name resolved (cluster.children resolved.identity defaults) m) m t tried t' m')
      t m := by
  have hr := Cluster.isDesired_children hdeclared resolved.identity defaults
  have hstart : Progress ns name (cluster.children resolved.identity defaults) allowed
      (expected ns name resolved (cluster.children resolved.identity defaults) m) m t [] t m :=
    ⟨hm, rfl, nofun, nofun, fun _ _ => rfl, nofun, fun _ => by simp⟩
  have hsecret : (applySecret resolved (cluster.secret resolved.identity).resource).Meets
      (isolated allowed answers) (fun secret t' m' =>
        Progress ns name (cluster.children resolved.identity defaults) allowed
          (expected ns name resolved (cluster.children resolved.identity defaults) m) m t
          [(.secret, secret)] t' m') t m := by
    refine (effect_storeSecret hm hdeclared hresolved).bind fun result t₁ m₁ heffect => ?_
    obtain ⟨heffect, hreports⟩ := heffect
    refine meets_recordApply .secret _ fun t₂ htold =>
      hstart.attempt nofun heffect fun other => ?_
    rw [htold, failed_congr hreports]
  refine hsecret.bind fun secret t₁ m₁ h₁ => ?_
  refine (meets_applyConfig h₁ (hr .config) rfl).bind fun config t₂ m₂ h₂ => ?_
  refine (meets_applyChild h₂ (hr .serviceAccount) (by cases secret <;> simp) rfl).bind
    fun account t₃ m₃ h₃ => ?_
  refine (meets_applyChild h₃ (hr .service) (by cases secret <;> simp) rfl).bind
    fun service t₄ m₄ h₄ => ?_
  refine (meets_applyChild h₄ (hr .scripts) (by cases secret <;> simp) rfl).bind
    fun scripts t₅ m₅ h₅ => ?_
  refine (meets_applyChild h₅ (hr .statefulSet) (by cases secret <;> simp) rfl).bind
    fun statefulSet t₆ m₆ h₆ => ?_
  have hcomplete := complete secret config account service scripts statefulSet
  split
  · next hall =>
      rw [if_pos hall] at hcomplete
      exact ⟨_, hcomplete, h₆⟩
  · next hfailed =>
      rw [if_neg hfailed] at hcomplete
      exact ⟨_, hcomplete, h₆⟩

/-! ### The identity -/

def Dependable (answers : Except IdentityError Identity → Prop) : Prop :=
  ∀ e, ¬ answers (.error e)

theorem meets_generateIdentity :
    generateIdentity.Meets (isolated allowed answers) (fun result t' m' => m' = m ∧
      (∀ child, Failed child t' ↔ Failed child t) ∧
      (∀ identity, result = .ok identity → answers (.ok identity)) ∧
      (Dependable answers → ∃ identity, result = .ok identity)) t m := by
  intro answer hanswer
  cases answer with
  | error e => exact ⟨rfl, fun _ => failed_drew _, nofun, fun h => absurd hanswer (h e)⟩
  | ok identity =>
      refine ⟨rfl, fun _ => (failed_recorded _).trans (failed_drew _), ?_, fun _ => ⟨identity, rfl⟩⟩
      rintro _ ⟨⟩
      exact hanswer

structure Search (ns name : String) (allowed : List Failure → Prop)
    (answers : Except IdentityError Identity → Prop) (m : Memory) (before : Trace)
    (result : Except ReconcileError ResolvedIdentity) (t : Trace) (m' : Memory) : Prop where
  same : m'.objects = m.objects
  resolved : ∀ resolved, result = .ok resolved → ResolvedAt ns name answers m' resolved
  works : Exempts allowed .get .secret →
    (m.identity? (Child.secret.key ns name) = none → Dependable answers) →
    ∃ resolved, result = .ok resolved
  told : ∀ child, Failed child t ↔ Failed child before

/-- Going on with a new identity, where the store is as the pass found it. -/
theorem meets_newIdentity {resolve : Identity → ResolvedIdentity} (hsame : m'.objects = m.objects)
    (hlost : m.identity? (Child.secret.key ns name) = none)
    (hresolve : ∀ identity, answers (.ok identity) → ResolvedAt ns name answers m' (resolve identity))
    (htold : ∀ child, Failed child t ↔ Failed child before) :
    (do
      let generated ← generateIdentity
      pure (generated.map resolve) : Program (Except ReconcileError ResolvedIdentity)).Meets
      (isolated allowed answers) (fun result t' m'' =>
        Search ns name allowed answers m before result t' m'') t m' := by
  refine meets_generateIdentity.bind fun result t' _ h => ?_
  obtain ⟨rfl, htold', hanswered, hworks⟩ := h
  have htold'' (child : Child) := (htold' child).trans (htold child)
  cases result with
  | error e =>
      refine ⟨hsame, nofun, fun _ hdependable => ?_, htold''⟩
      obtain ⟨identity, hidentity⟩ := hworks (hdependable hlost)
      cases hidentity
  | ok identity =>
      refine ⟨hsame, ?_, fun _ _ => ⟨_, rfl⟩, htold''⟩
      rintro _ ⟨⟩
      exact hresolve identity (hanswered identity rfl)

theorem meets_resolveIdentity (hm : m.WellFormed ns name) :
    (resolveIdentity ns (ChildNames.ofCluster name).secret).Meets (isolated allowed answers)
      (fun result t' m' => Search ns name allowed answers m t result t' m') t m := by
  refine Program.meets_get fun m₁ hrely => ?_
  obtain ⟨hsame, hfailures⟩ := isolated_rely hrely
  have hm₁ := hm.of_objects hsame
  have hget₁ := get?_of_objects hsame (Child.secret.key ns name)
  rcases hget : m₁.get ⟨.secret, ns, (ChildNames.ofCluster name).secret⟩ with e | _ | secret
  · refine ⟨hsame, nofun, fun hexempts _ => ?_, fun _ => failed_called _ _⟩
    cases hstored : m₁.get? (Child.secret.key ns name) with
    | none => cases (get_of_absent (hfailures _ _ hexempts) hstored).symm.trans hget
    | some raw =>
        obtain ⟨found, hfound⟩ := hm₁.get_of_present (hfailures _ _ hexempts) hstored
        cases hfound.symm.trans hget
  · have hnone : m₁.get? (Child.secret.key ns name) = none := get?_eq_none_of_get hget
    refine meets_newIdentity hsame ?_ (fun identity hanswer => .fresh hanswer hnone)
      fun _ => failed_called _ _
    rw [identity?, ← hget₁, hnone]
    rfl
  · obtain ⟨raw, hraw, hread⟩ := exists_of_get hget
    have hreplacing {t' : Trace} (hunusable : raw.identity? = none)
        (htold : ∀ child, Failed child t' ↔ Failed child t) :
        (replacingIdentity secret).Meets (isolated allowed answers)
          (fun result t'' m' => Search ns name allowed answers m t result t'' m') t' m₁ :=
      meets_newIdentity hsame
        ((identity?_congr hget₁).symm.trans ((identity?_of_get? hraw).trans hunusable))
        (fun identity hanswer => .replacing hanswer hraw hread hunusable) htold
    rcases hkept : persistedIdentity secret with _ | e | identity
    · simp only [hkept]
      refine hreplacing ?_ fun _ => (failed_warned_other fun _ _ => Warning.noConfusion).trans
        (failed_called _ _)
      simp [Json.identity?, hread, hkept]
    · simp only [hkept]
      refine hreplacing ?_ fun _ => (failed_warned_other fun _ _ => Warning.noConfusion).trans
        (failed_called _ _)
      simp [Json.identity?, hread, hkept, Except.toOption]
    · simp only [hkept]
      refine ⟨hsame, ?_, fun _ _ => ⟨_, rfl⟩,
        fun _ => (failed_recorded _).trans (failed_called _ _)⟩
      rintro _ ⟨⟩
      exact .persisted ((identity?_of_get? hraw).trans ((Json.identity?_eq_some_iff hread).mpr hkept))

/-- A pass over a managed declaration converges on it, unless the declaration cannot be read. -/
theorem meets_pass_of_managed {ipfs : Resource} {defaults : WorkloadDefaults}
    {post : Except ReconcileError Ending → Trace → Memory → Prop} (hmanages : m.Manages ns name ipfs)
    (hunread : ∀ e t' m', ¬ Exempts allowed .get .ipfs → post (.error (.fetch ns name e)) t' m')
    (hread : ∀ m', (isolated allowed answers).rely m m' →
      (converge defaults ns name ipfs).Meets (isolated allowed answers) (fun ending => post (.ok ending))
        (.called (.get ⟨.ipfs, ns, name⟩) (Except.ok (some ipfs)) :: t) m') :
    (pass defaults ns name).Meets (isolated allowed answers) post t m := by
  refine Program.meets_get fun m₁ hrely => ?_
  obtain ⟨hsame, hfailures⟩ := isolated_rely hrely
  obtain ⟨raw, hget, hreadas, hstate⟩ := hmanages.of_objects hsame
  rcases m₁.get_cases ⟨.ipfs, ns, name⟩ with
    ⟨e, herror⟩ | ⟨hnone, -⟩ | ⟨stored, found, hstored, hfound, hreply⟩
  · rw [herror]
    refine hunread e _ m₁ fun hexempts => ?_
    cases (get_of_present (hfailures _ _ hexempts) hget hreadas).symm.trans herror
  · cases hget.symm.trans hnone
  · cases hget.symm.trans hstored
    cases hreadas.symm.trans hfound
    simp only [hreply, hstate]
    exact (hread m₁ hrely).bind fun _ _ _ h => h

def Ending.outcome : Ending → Outcome
  | .done => .done
  | .requeue _ => .requeue

theorem Ending.outcome_eq_done_iff {ending : Ending} : ending.outcome = .done ↔ ending = .done := by
  cases ending <;> simp [outcome]

/-- What the convergence on a managed declaration comes to, with its outcome recorded, is what the
pass comes to, unless the declaration cannot be read. -/
theorem meets_reconcile_of_managed {ipfs : Resource} {defaults : WorkloadDefaults}
    {post : Except ReconcileError Outcome → Trace → Memory → Prop} (hmanages : m.Manages ns name ipfs)
    (hunread : ∀ e t' m', ¬ Exempts allowed .get .ipfs → post (.error (.fetch ns name e)) t' m')
    (hread : ∀ m', (isolated allowed answers).rely m m' →
      (converge defaults ns name ipfs).Meets (isolated allowed answers)
        (fun ending t' m'' => ∀ record,
          post (.ok ending.outcome) (.reported (.recorded record) :: t') m'')
        (.called (.get ⟨.ipfs, ns, name⟩) (Except.ok (some ipfs)) :: t) m') :
    (reconcile defaults ns name).Meets (isolated allowed answers) post t m := by
  have hpass : (pass defaults ns name).Meets (isolated allowed answers)
      (fun result t' m' => ∀ record,
        post (result.map Ending.outcome) (.reported (.recorded record) :: t') m') t m :=
    meets_pass_of_managed hmanages (fun e _ m' hexempts _ => hunread e _ m' hexempts) hread
  refine hpass.bind fun result t' m' hpost => ?_
  rcases result with e | _ | reason <;> exact hpost _

end Reconcile

end ClusterKeeper
