import Nakode.Service.Workspace

/-!
# When the workspace configuration converges

A session that has been given a configuration matches its source exactly when it keeps all of the
source's skills (`matches_synchronize_iff`): the skills are the one field that is compared as the
source has it and copied in part. Giving the configuration again changes nothing
(`synchronize_idempotent`), and the session's own state is left alone (`SameSession`). After a
commit that gives a configuration on, every session matches the template exactly when all of them
keep the skills of the committed one (`configuration_converges_iff`).
-/

namespace Nakode.Service

open Relational

variable {ν ω : Type}

namespace DomainState

variable {s source u : DomainState ν ω} {contexts : Table String (ProviderContext ν)}

/-! ## Providers -/

@[simp] theorem find?_mergeContexts (s source : DomainState ν ω) (provider : String) :
    (s.mergeContexts source).find? provider
      = (source.providerContexts.find? provider).map (s.mergeContext provider) := by
  ext context
  rw [Table.find?_eq_some_iff, Option.map_eq_some_iff]
  simp only [mergeContexts, List.mem_map, Prod.mk.injEq, Prod.exists, Table.find?_eq_some_iff]
  constructor
  · rintro ⟨_, shared, hmem, rfl, rfl⟩
    exact ⟨shared, hmem, rfl⟩
  · rintro ⟨shared, hmem, rfl⟩
    exact ⟨provider, shared, hmem, rfl, rfl⟩

/-- A session with merged contexts merges them to the same ones. -/
theorem mergeContexts_idem (h : u.providerContexts = s.mergeContexts source) :
    u.mergeContexts source = s.mergeContexts source := by
  refine Table.ext (List.map_congr_left fun row hrow => ?_)
  have hfind : source.providerContexts.find? row.1 = some row.2 := Table.find?_eq_some_iff.2 hrow
  simp only [mergeContext, h, find?_mergeContexts, hfind, Option.map_some, Option.bind_some]

/-- The provider that a session goes on with has a context. -/
theorem find?_activeProvider {provider : String}
    (h : s.activeProvider? source contexts = some provider) :
    (contexts.find? provider).isSome := by
  unfold activeProvider? at h
  split at h
  · next hown =>
    cases h
    exact (Bool.and_eq_true_iff.1 hown).1
  split at h
  · next hshared =>
    cases h
    exact (Bool.and_eq_true_iff.1 hshared).1
  · rw [← Table.mem_keys_iff, ← List.mem_insertionSort (· ≤ ·)]
    exact List.mem_of_mem_head? h

/-- The choice of a provider stands when it is made again. -/
theorem activeProvider?_idem {provider : String}
    (h : s.activeProvider? source contexts = some provider) (hu : u.backendProvider = provider) :
    u.activeProvider? source contexts = some provider := by
  have hfound := find?_activeProvider h
  unfold activeProvider?
  rw [hu]
  by_cases hempty : provider.isEmpty
  · unfold activeProvider? at h
    split at h
    · next hown =>
      cases h
      simp [hempty] at hown
    · split at h
      · next hshared =>
        cases h
        simp [hempty] at hshared
      · next hshared =>
        rw [if_neg (by simp [hempty]), if_neg hshared]
        exact h
  · rw [if_pos (by simp [hfound, hempty])]

variable [Inhabited ν]

/-- A session is on a provider of the contexts, or on none when there are no contexts. -/
inductive OnProvider (contexts : Table String (ProviderContext ν)) (source : DomainState ν ω) :
    DomainState ν ω → Prop
  | some {u : DomainState ν ω} {active : ProviderContext ν}
      (hchosen : u.activeProvider? source contexts = some u.backendProvider)
      (hactive : contexts.find? u.backendProvider = some active)
      (hname : u.backendName = active.name)
      (hcapabilities : u.backendCapabilities = active.capabilities)
      (hconnection : u.connection = active.connection) : OnProvider contexts source u
  | none {u : DomainState ν ω} (hchosen : u.activeProvider? source contexts = .none)
      (hprovider : u.backendProvider = "") (hname : u.backendName = "No provider")
      (hcapabilities : u.backendCapabilities = default)
      (hconnection : u.connection = .disconnected "no provider enabled")
      (hnative : u.providerSessionId = .none) (hsession : u.sessionId = .none)
      (husage : u.contextUsage = .none) : OnProvider contexts source u

theorem selectProvider_self (hcontexts : u.providerContexts = contexts)
    (h : OnProvider contexts source u) : u.selectProvider source contexts = u := by
  subst hcontexts
  cases h with
  | some hchosen hactive hname hcapabilities hconnection =>
    simp only [selectProvider, hchosen, hactive, bne_self_eq_false, Bool.false_eq_true, if_false,
      ← hname, ← hcapabilities, ← hconnection]
  | none hchosen hprovider hname hcapabilities hconnection hnative hsession husage =>
    simp only [selectProvider, hchosen]
    cases u
    simp only at hprovider hname hcapabilities hconnection hnative hsession husage
    simp only [hprovider, hname, hcapabilities, hconnection, hnative, hsession, husage]

omit [Inhabited ν] in
theorem activeProvider?_eq_none (h : s.activeProvider? source contexts = none) :
    contexts.rows = [] := by
  unfold activeProvider? at h
  split at h
  · cases h
  split at h
  · cases h
  have hlen := List.length_insertionSort (· ≤ ·) (contexts.rows.map Prod.fst)
  rw [List.head?_eq_none_iff.1 h, List.length_map] at hlen
  exact List.eq_nil_of_length_eq_zero hlen.symm

omit [Inhabited ν] in
/-- Without contexts there is no provider to choose. -/
theorem activeProvider?_of_nil (h : contexts.rows = []) (u source : DomainState ν ω) :
    u.activeProvider? source contexts = none := by
  have hfind : ∀ k, contexts.find? k = none := fun k =>
    Table.find?_eq_none_iff.2 fun r => by simp [h]
  simp [activeProvider?, hfind, h]

/-- A session that has selected a provider is on it. -/
theorem onProvider_selectProvider (s source : DomainState ν ω)
    (contexts : Table String (ProviderContext ν)) :
    OnProvider contexts source (s.selectProvider source contexts) := by
  cases hchosen : s.activeProvider? source contexts with
  | none =>
    have hchosen' : ({ s with providerContexts := contexts } : DomainState ν ω).activeProvider?
        source contexts = none := hchosen
    simp only [selectProvider, hchosen']
    exact .none (activeProvider?_of_nil (activeProvider?_eq_none hchosen) _ _) rfl rfl rfl rfl rfl
      rfl rfl
  | some provider =>
    have hchosen' : ({ s with providerContexts := contexts } : DomainState ν ω).activeProvider?
        source contexts = some provider := hchosen
    obtain ⟨active, hactive⟩ := Option.isSome_iff_exists.1 (find?_activeProvider hchosen)
    simp only [selectProvider, hchosen', hactive]
    split
    · exact .some (activeProvider?_idem hchosen rfl) hactive rfl rfl rfl
    · exact .some (activeProvider?_idem hchosen rfl) hactive rfl rfl rfl

/-- What selecting a provider leaves alone. -/
theorem selectProvider_frame (s source : DomainState ν ω)
    (contexts : Table String (ProviderContext ν)) :
    (s.selectProvider source contexts).providerContexts = contexts ∧
    (s.selectProvider source contexts).enabledSkillIds = s.enabledSkillIds ∧
    (s.selectProvider source contexts).own = s.own := by
  unfold selectProvider
  dsimp only
  split
  · split
    · split <;> exact ⟨rfl, rfl, rfl⟩
    · exact ⟨rfl, rfl, rfl⟩
  · exact ⟨rfl, rfl, rfl⟩

/-! ## A session and its source -/

variable (s source)

/-- A session that has been given a configuration is not changed by it. -/
theorem synchronize_idempotent :
    (s.synchronizeWorkspaceConfiguration source).synchronizeWorkspaceConfiguration source
      = s.synchronizeWorkspaceConfiguration source := by
  obtain ⟨t, ht⟩ : ∃ t, t = s.selectProvider source (s.mergeContexts source) := ⟨_, rfl⟩
  have hcontexts : t.providerContexts = s.mergeContexts source := by
    rw [ht]
    exact (selectProvider_frame s source _).1
  obtain ⟨u, hu⟩ : ∃ u, u = s.synchronizeWorkspaceConfiguration source := ⟨_, rfl⟩
  have hucontexts : u.providerContexts = s.mergeContexts source := by
    rw [hu, ← hcontexts, ht]
    rfl
  have hon : OnProvider (s.mergeContexts source) source u := by
    have honSelected := onProvider_selectProvider s source (s.mergeContexts source)
    rw [← ht] at honSelected
    rw [hu, synchronizeWorkspaceConfiguration, ← ht]
    cases honSelected with
    | some hchosen hactive hname hcapabilities hconnection =>
      exact .some hchosen hactive hname hcapabilities hconnection
    | none hchosen hprovider hname hcapabilities hconnection hnative hsession husage =>
      exact .none hchosen hprovider hname hcapabilities hconnection hnative hsession husage
  rw [← hu, synchronizeWorkspaceConfiguration, mergeContexts_idem hucontexts,
    selectProvider_self hucontexts hon, hu]
  rfl

/-- A session keeps what is its own: everything outside the configuration, the skills it enables,
its native sessions with the providers that there still are, and the provider it is on if that one
is among them. -/
structure SameSession (s source u : DomainState ν ω) : Prop where
  own : u.own = s.own
  enabledSkillIds : u.enabledSkillIds = s.enabledSkillIds
  contexts : ∀ provider before after, s.providerContexts.find? provider = some before →
    u.providerContexts.find? provider = some after →
    after.providerSessionId = before.providerSessionId ∧ after.sessionId = before.sessionId ∧
      after.contextUsage = before.contextUsage
  active : s.backendProvider.isEmpty = false →
    (source.providerContexts.find? s.backendProvider).isSome →
    u.backendProvider = s.backendProvider ∧ u.providerSessionId = s.providerSessionId ∧
      u.sessionId = s.sessionId ∧ u.contextUsage = s.contextUsage

theorem sameSession_synchronize :
    SameSession s source (s.synchronizeWorkspaceConfiguration source) := by
  obtain ⟨hcontexts, hskills, hown⟩ := selectProvider_frame s source (s.mergeContexts source)
  refine ⟨hown, hskills, fun provider before after hbefore hafter => ?_, fun hprovider hstill => ?_⟩
  · have hmerged : (s.mergeContexts source).find? provider = some after := by
      rw [← hcontexts]
      exact hafter
    rw [find?_mergeContexts, Option.map_eq_some_iff] at hmerged
    obtain ⟨shared, -, rfl⟩ := hmerged
    simp [mergeContext, hbefore]
  · obtain ⟨t, ht⟩ : ∃ t, t = s.selectProvider source (s.mergeContexts source) := ⟨_, rfl⟩
    have hkept : t.backendProvider = s.backendProvider ∧
        t.providerSessionId = s.providerSessionId ∧ t.sessionId = s.sessionId ∧
        t.contextUsage = s.contextUsage := by
      have hfound : ((s.mergeContexts source).find? s.backendProvider).isSome := by
        simpa using hstill
      have hchosen : ({ s with providerContexts := s.mergeContexts source } :
          DomainState ν ω).activeProvider? source (s.mergeContexts source)
          = some s.backendProvider := by
        rw [activeProvider?, if_pos (by rw [hprovider, hfound]; rfl)]
      obtain ⟨active, hactive⟩ := Option.isSome_iff_exists.1 hfound
      simp only [ht, selectProvider, hchosen, hactive, bne_self_eq_false, Bool.false_eq_true,
        if_false, and_self]
    rw [synchronizeWorkspaceConfiguration, ← ht]
    exact hkept

/-! ## The comparison -/

/-- The session has all of some skills among those it enables. -/
def Enables (skills : List (Skill ν)) : Prop :=
  ∀ enabled, s.enabledSkillIds = some enabled → ∀ skill ∈ skills, skill.stableId ∈ enabled

/-- The skills of a session that is given some. -/
def installed (skills : List (Skill ν)) : List (Skill ν) := (s.installSkills skills).skills

omit [Inhabited ν] in
theorem installed_eq_self_iff {skills : List (Skill ν)} :
    s.installed skills = skills ↔ s.Enables skills := by
  unfold installed installSkills Enables
  cases s.enabledSkillIds with
  | none => simp
  | some enabled => simp [intoOnlyIds, List.filter_eq_self]

/-- The fields that are compared and copied as they are. -/
def settings : List ν × (ν × ν × ν × ν) × (List ν × String × String) ×
    (ν × ν × ν × ν × ν × Bool × ν × ν) :=
  (s.models, (s.providerAuthentication, s.providerAccountAuthentication, s.modelOptions,
      s.defaultModelOptions), (s.agents, s.agentDirectory, s.nakodeExecutable),
    (s.executionHost, s.webConfig, s.memoryConfig, s.visionConfig, s.terminalImageMode,
      s.invocationTelemetryEnabled, s.agentBrowserStatus, s.availableBuiltinTools))

/-- Both sessions have the same providers, under the same names, capabilities and connections. -/
def SameProviders : Prop :=
  s.providerContexts.rows.length = source.providerContexts.rows.length ∧
    ∀ row ∈ s.providerContexts.rows, ∃ candidate,
      source.providerContexts.find? row.1 = some candidate ∧ row.2.name = candidate.name ∧
        row.2.capabilities = candidate.capabilities ∧ row.2.connection = candidate.connection

omit [Inhabited ν] in
theorem matches_iff [DecidableEq ν] : s.workspaceConfigurationMatches source = true ↔
    s.SameProviders source ∧ s.settings = source.settings ∧ s.skills = source.skills := by
  simp only [workspaceConfigurationMatches, SameProviders, settings, Bool.and_eq_true, beq_iff_eq,
    List.all_eq_true, Option.any_eq_true, Prod.mk.injEq, Prod.forall, and_assoc]
  tauto

/-- A session has the providers of a source and its settings; nothing is said of its skills. -/
structure Given (s source : DomainState ν ω) : Prop where
  length : s.providerContexts.rows.length = source.providerContexts.rows.length
  context : ∀ provider shared, source.providerContexts.find? provider = some shared →
    ∃ candidate, s.providerContexts.find? provider = some candidate ∧
      candidate.name = shared.name ∧ candidate.capabilities = shared.capabilities ∧
        candidate.connection = shared.connection
  settings : s.settings = source.settings

omit [Inhabited ν] in
theorem given_self : source.Given source :=
  ⟨rfl, fun _ shared h => ⟨shared, h, rfl, rfl, rfl⟩, rfl⟩

theorem given_synchronize : (s.synchronizeWorkspaceConfiguration source).Given source := by
  have hcontexts : (s.synchronizeWorkspaceConfiguration source).providerContexts
      = s.mergeContexts source := (selectProvider_frame s source (s.mergeContexts source)).1
  refine ⟨?_, fun provider shared hshared => ?_, rfl⟩
  · rw [hcontexts]
    exact List.length_map _
  · exact ⟨s.mergeContext provider shared, by rw [hcontexts, find?_mergeContexts, hshared]; rfl,
      rfl, rfl, rfl⟩

theorem skills_synchronize :
    (s.synchronizeWorkspaceConfiguration source).skills = s.installed source.skills := by
  have hskills := (selectProvider_frame s source (s.mergeContexts source)).2.1
  simp only [synchronizeWorkspaceConfiguration, installed, installSkills, hskills]

/-- A session that has been given a configuration matches another one that has it exactly when both
have the same skills. -/
theorem matches_synchronize_given_iff [DecidableEq ν] {v : DomainState ν ω} (hv : v.Given source) :
    (s.synchronizeWorkspaceConfiguration source).workspaceConfigurationMatches v = true
      ↔ s.installed source.skills = v.skills := by
  have hs := s.given_synchronize source
  have hproviders : (s.synchronizeWorkspaceConfiguration source).SameProviders v := by
    refine ⟨hs.length.trans hv.length.symm, fun row hrow => ?_⟩
    have hrow : row ∈ (s.mergeContexts source).rows := by
      rw [← (selectProvider_frame s source (s.mergeContexts source)).1]
      exact hrow
    obtain ⟨shared, hshared, rfl⟩ := List.mem_map.1 hrow
    obtain ⟨candidate, hcandidate, hname, hcapabilities, hconnection⟩ :=
      hv.context shared.1 shared.2 (Table.find?_eq_some_iff.2 hshared)
    exact ⟨candidate, hcandidate, hname.symm, hcapabilities.symm, hconnection.symm⟩
  rw [matches_iff, skills_synchronize]
  exact ⟨fun h => h.2.2, fun h => ⟨hproviders, hs.settings.trans hv.settings.symm, h⟩⟩

theorem matches_synchronize_iff [DecidableEq ν] :
    (s.synchronizeWorkspaceConfiguration source).workspaceConfigurationMatches source = true
      ↔ s.Enables source.skills :=
  (s.matches_synchronize_given_iff source source.given_self).trans s.installed_eq_self_iff

end DomainState

/-! ## The publish loop -/

namespace Sessions

open DomainState

variable [DecidableEq ν] [Inhabited ν]

/-- No session needs to be synchronized. -/
def InSync (core : Sessions ν ω) : Prop :=
  ∀ id s, core.sessionsById.find? id = some s →
    core.sessionTemplate.workspaceConfigurationMatches s = true

/-- After a session's configuration has been given on, no session needs to be synchronized exactly
when the template and all other sessions enable the session's skills. -/
theorem inSync_commit_iff {core : Sessions ν ω} {id : String} {source : DomainState ν ω}
    (hsource : core.sessionsById.find? id = some source)
    (hchanged : core.sessionTemplate.workspaceConfigurationMatches source = false) :
    (core.commitSession id).InSync ↔ core.sessionTemplate.Enables source.skills ∧
      ∀ other s, other ≠ id → core.sessionsById.find? other = some s → s.Enables source.skills := by
  have hcommit : core.commitSession id = core.synchronizeWorkspaceStateFrom id source := by
    simp [commitSession, hsource, hchanged]
  have hfind : ∀ other, (core.commitSession id).sessionsById.find? other
      = (core.sessionsById.find? other).map fun s =>
          if other != id then s.synchronizeWorkspaceConfiguration source else s := by
    intro other
    rw [hcommit, synchronizeWorkspaceStateFrom, Table.find?_update]
  have htemplate : (core.commitSession id).sessionTemplate
      = core.sessionTemplate.synchronizeWorkspaceConfiguration source := by
    rw [hcommit, synchronizeWorkspaceStateFrom]
  unfold InSync
  simp only [htemplate, hfind]
  constructor
  · intro hsync
    have hown := hsync id source (by simp [hsource])
    rw [matches_synchronize_iff] at hown
    refine ⟨hown, fun other s hne hs => ?_⟩
    have hother := hsync other (s.synchronizeWorkspaceConfiguration source) (by simp [hs, hne])
    rw [matches_synchronize_given_iff _ _ (s.given_synchronize source), skills_synchronize,
      (installed_eq_self_iff _).2 hown] at hother
    exact (installed_eq_self_iff s).1 hother.symm
  · rintro ⟨hown, hothers⟩ other s hs
    rw [Option.map_eq_some_iff] at hs
    obtain ⟨before, hbefore, rfl⟩ := hs
    by_cases hid : other = id
    · subst hid
      cases hsource.symm.trans hbefore
      simpa using (matches_synchronize_iff core.sessionTemplate source).2 hown
    · simp only [bne_iff_ne, ne_eq, hid, not_false_eq_true, if_true]
      rw [matches_synchronize_given_iff _ _ (before.given_synchronize source), skills_synchronize,
        (installed_eq_self_iff _).2 hown,
        (installed_eq_self_iff before).2 (hothers other before hid hbefore)]

/-- A session that has been given a configuration matches its source, is not changed by it a second
time and keeps its own state, exactly when it enables the skills of the source. And after a commit
that gives a configuration on no session needs synchronizing, exactly when the template and all
other sessions enable the skills of the committed one. -/
theorem configuration_converges_iff (s source : DomainState ν ω) (core : Sessions ν ω) (id : String) :
    (((s.synchronizeWorkspaceConfiguration source).workspaceConfigurationMatches source = true ∧
        (s.synchronizeWorkspaceConfiguration source).synchronizeWorkspaceConfiguration source
          = s.synchronizeWorkspaceConfiguration source ∧
        SameSession s source (s.synchronizeWorkspaceConfiguration source))
      ↔ s.Enables source.skills) ∧
    (core.sessionsById.find? id = some source →
      core.sessionTemplate.workspaceConfigurationMatches source = false →
      ((core.commitSession id).InSync ↔ core.sessionTemplate.Enables source.skills ∧
        ∀ other s, other ≠ id → core.sessionsById.find? other = some s →
          s.Enables source.skills)) := by
  refine ⟨⟨fun h => ?_, fun h => ?_⟩, inSync_commit_iff⟩
  · exact (matches_synchronize_iff s source).1 h.1
  · exact ⟨(matches_synchronize_iff s source).2 h, synchronize_idempotent s source,
      sameSession_synchronize s source⟩

end Sessions

/-! ## Instances -/

/-- A session with some skills, of which it enables some. -/
def sessionWith (skills : List (Skill Unit)) (enabled : Option (List String)) :
    DomainState Unit Unit where
  backendProvider := ""
  backendName := "No provider"
  backendCapabilities := ()
  connection := .starting
  providerContexts := ∅
  providerAuthentication := ()
  providerAccountAuthentication := ()
  providerSessionId := none
  sessionId := none
  contextUsage := none
  models := []
  modelOptions := ()
  defaultModelOptions := ()
  nakodeExecutable := "nakode"
  agents := []
  skills
  enabledSkillIds := enabled
  executionHost := ()
  agentDirectory := "agents"
  webConfig := ()
  memoryConfig := ()
  visionConfig := ()
  terminalImageMode := ()
  invocationTelemetryEnabled := false
  agentBrowserStatus := ()
  availableBuiltinTools := ()
  own := ()

/-- A session gets a new skill; the template has none yet and takes all. -/
theorem configuration_converges_new_skill :
    let source := sessionWith [⟨"review", "review", ()⟩] none
    let core : Sessions Unit Unit :=
      ⟨sessionWith [] none, (∅ : Table String (DomainState Unit Unit)).insertOrIgnore "a" source⟩
    (core.commitSession "a").InSync ↔ core.sessionTemplate.Enables source.skills ∧
      ∀ other s, other ≠ "a" → core.sessionsById.find? other = some s →
        s.Enables source.skills :=
  (Sessions.configuration_converges_iff (sessionWith [] none) _ _ "a").2 (by simp) (by decide)

/-- A session whose profile enables no skill does not match the source it was synchronized with. -/
theorem disabled_skill_never_matches :
    let s := sessionWith [] (some [])
    let source := sessionWith [⟨"review", "review", ()⟩] none
    (s.synchronizeWorkspaceConfiguration source).workspaceConfigurationMatches source = false := by
  decide

end Nakode.Service
