import Nakode.Lib.Least
import Nakode.Lib.Table

/-!
# The account a session runs on

A provider has accounts, of which the server chooses one for a session (`selectAccount`): among the
eligible accounts that are routed automatically the one with the fewest live sessions. The count of
live sessions looks at the account's id and not at the provider, and so it is the provider's own
(`account_routing_fair_iff`) as long as the sessions of other providers on accounts of the same ids
change nothing.
-/

namespace Nakode.Routing

open Relational (Table)

inductive ProviderAccountRoutingMode
  | automatic
  | explicitOnly
  deriving DecidableEq, Repr

structure ProviderAccountRecord where
  accountId : String
  label : String
  enabled : Bool
  isDefault : Bool
  routingMode : ProviderAccountRoutingMode
  deriving DecidableEq, Repr

structure ProviderCooldown where
  endsAtMs : Nat
  reason : String
  deriving DecidableEq, Repr

/-- `BackendRegistry`: the providers with a control channel, their accounts, the accounts with a
credential, the cooldowns, and the account of each live session of a provider. -/
structure BackendRegistry where
  commands : List String
  providerAccounts : Table String (List ProviderAccountRecord)
  providerAccountCredentials : List (String × String)
  providerCooldowns : Table (String × String) ProviderCooldown
  sessionAccounts : Table (String × String) String

structure AccountSelection where
  accountId : String
  label : String
  reason : String
  deriving DecidableEq, Repr

inductive BackendError
  | providerUnavailable (provider : String)
  | providerCoolingDown (provider : String) (remainingSeconds : Nat) (reason : String)
  | invalidCredential (provider detail : String)
  deriving DecidableEq, Repr

def BackendError.text : BackendError → String
  | providerUnavailable provider => "provider " ++ provider ++ " is not enabled for new work"
  | providerCoolingDown provider remainingSeconds reason =>
    "provider " ++ provider ++ " is temporarily unavailable for " ++ toString remainingSeconds
      ++ "s after: " ++ reason
  | invalidCredential provider detail =>
    "stored credential for " ++ provider ++ " is invalid: " ++ detail

namespace BackendRegistry

variable (r : BackendRegistry) (now : Nat) (provider : String)

def accounts : List ProviderAccountRecord := (r.providerAccounts.find? provider).getD []

/-! ## Eligible accounts -/

/-- `active_cooldown`: a cooldown that has ended is forgotten. -/
def activeCooldown (accountId : String) : Option (Nat × String) × BackendRegistry :=
  match r.providerCooldowns.find? (provider, accountId) with
  | none => (none, r)
  | some cooldown =>
    if cooldown.endsAtMs ≤ now then
      (none, { r with providerCooldowns :=
        r.providerCooldowns.delete fun key _ => key == (provider, accountId) })
    else (some ((cooldown.endsAtMs - now) / 1000, cooldown.reason), r)

def ensureAccountEligible (account : ProviderAccountRecord) :
    Except BackendError Unit × BackendRegistry :=
  if !account.enabled then
    (.error (.invalidCredential provider ("account " ++ account.accountId ++ " is disabled")), r)
  else if !r.providerAccountCredentials.contains (provider, account.accountId) then
    (.error (.invalidCredential provider ("account " ++ account.accountId
      ++ " requires authentication; reconnect this account or synchronize its brokered credential")),
      r)
  else
    match r.activeCooldown now provider account.accountId with
    | (some (remainingSeconds, reason), r) =>
      (.error (.providerCoolingDown (provider ++ " account " ++ account.accountId) remainingSeconds
        reason), r)
    | (none, r) => (.ok (), r)

/-- The accounts that pass the check, and why the others do not. -/
def checkAccounts (r : BackendRegistry) :
    List ProviderAccountRecord → List ProviderAccountRecord × List String × BackendRegistry
  | [] => ([], [], r)
  | account :: accounts =>
    match r.ensureAccountEligible now provider account with
    | (.ok (), r) =>
      let (eligible, reasons, r) := checkAccounts r accounts
      (account :: eligible, reasons, r)
    | (.error error, r) =>
      let (eligible, reasons, r) := checkAccounts r accounts
      (eligible, (account.label ++ ": " ++ error.text) :: reasons, r)

/-! ## Selection -/

/-- The live sessions on accounts of an id. -/
def load (accountId : String) : Nat := r.sessionAccounts.rows.countP (·.2 == accountId)

/-- Few sessions first, then the default, then the smallest id. -/
def rank (account : ProviderAccountRecord) : Nat ×ₗ Bool ×ₗ String :=
  toLex (r.load account.accountId, toLex (!account.isDefault, account.accountId))

def leastLoaded (reasons : List String) (eligible : List ProviderAccountRecord) :
    Except BackendError AccountSelection :=
  match Least.least r.rank eligible with
  | none => .error (.invalidCredential provider
      (if reasons.isEmpty then "no configured provider accounts are available"
        else "all provider accounts are unavailable (" ++ String.intercalate "; " reasons ++ ")"))
  | some account => .ok ⟨account.accountId, account.label,
      if (r.accounts provider).length = 1 then "only eligible account"
      else if account.isDefault && r.load account.accountId == 0 then "preferred account tie-break"
      else "least loaded"⟩

/-- The choice among eligible accounts. -/
def route (reasons : List String) (eligible : List ProviderAccountRecord) :
    Except BackendError AccountSelection :=
  if eligible.length > 1 then
    let automatic := eligible.filter (·.routingMode == .automatic)
    if automatic.isEmpty then
      -- With no account routed automatically, the owner's default is the choice.
      match eligible.find? (·.isDefault) with
      | some default => .ok ⟨default.accountId, default.label, "default account"⟩
      | none => .error (.invalidCredential provider ("multiple eligible accounts require explicit "
          ++ "selection because this adapter does not support automatic routing"))
    else r.leastLoaded provider reasons automatic
  else r.leastLoaded provider reasons eligible

def selectAccount (explicitAccountId : Option String) :
    Except BackendError AccountSelection × BackendRegistry :=
  match explicitAccountId with
  | some accountId =>
    match (r.accounts provider).find? (·.accountId == accountId) with
    | none => (.error (.invalidCredential provider ("account " ++ accountId ++ " does not exist")), r)
    | some account =>
      match r.ensureAccountEligible now provider account with
      | (.error error, r) => (.error error, r)
      | (.ok (), r) => (.ok ⟨account.accountId, account.label, "explicit override"⟩, r)
  | none =>
    let (eligible, reasons, r) := r.checkAccounts now provider (r.accounts provider)
    (r.route provider reasons eligible, r)

def accountLabel (accountId : String) : String :=
  match (r.accounts provider).find? (·.accountId == accountId) with
  | some account => account.label
  | none => accountId

/-- The first candidate that is an eligible account. -/
def firstEligible (r : BackendRegistry) (accounts : List ProviderAccountRecord) :
    List String → Option ProviderAccountRecord × BackendRegistry
  | [] => (none, r)
  | candidate :: candidates =>
    match accounts.find? (·.accountId == candidate) with
    | none => firstEligible r accounts candidates
    | some account =>
      match r.ensureAccountEligible now provider account with
      | (.ok (), r) => (some account, r)
      | (.error _, r) => firstEligible r accounts candidates

def selectSessionAccount (sessionId : String) (preferred : Option String) (maySwitch : Bool) :
    Except BackendError AccountSelection × BackendRegistry :=
  if !r.commands.contains provider then (.error (.providerUnavailable provider), r)
  else
    let current := r.sessionAccounts.find? (sessionId, provider)
    match maySwitch, current with
    | false, some current =>
      (.ok ⟨current, r.accountLabel provider current, "the running turn's account"⟩, r)
    | _, _ =>
      match r.firstEligible now provider (r.accounts provider)
        (preferred.toList ++ current.toList) with
      | (some account, r) =>
        (.ok ⟨account.accountId, account.label, "the session's current account"⟩, r)
      | (none, r) =>
        match r.selectAccount now provider none, current with
        | (.ok selection, r), _ => (.ok selection, r)
        -- With nowhere better to go, the live handle keeps its account.
        | (.error _, r), some current =>
          (.ok ⟨current, r.accountLabel provider current, "no other eligible account"⟩, r)
        | (.error error, r), none => (.error error, r)

/-! ## What is promised -/

/-- Enabled, with a credential, and not cooling down. -/
def Eligible (account : ProviderAccountRecord) : Prop :=
  account.enabled = true ∧ (provider, account.accountId) ∈ r.providerAccountCredentials ∧
    (r.providerCooldowns.find? (provider, account.accountId)).all (·.endsAtMs ≤ now) = true

instance (account : ProviderAccountRecord) : Decidable (r.Eligible now provider account) :=
  inferInstanceAs (Decidable (_ ∧ _ ∧ _))

def eligibleAccounts : List ProviderAccountRecord :=
  (r.accounts provider).filter fun account => r.Eligible now provider account

/-- The eligible accounts that are routed automatically. -/
def automaticAccounts : List ProviderAccountRecord :=
  (r.eligibleAccounts now provider).filter (·.routingMode == .automatic)

/-- The live sessions of a provider on an account. -/
def providerLoad (accountId : String) : Nat :=
  r.sessionAccounts.rows.countP fun row => row.1.2 == provider && row.2 == accountId

/-- Few sessions of the provider first, then the default, then the smallest id. -/
def providerRank (account : ProviderAccountRecord) : Nat ×ₗ Bool ×ₗ String :=
  toLex (r.providerLoad provider account.accountId, toLex (!account.isDefault, account.accountId))

/-- Which accounts are selected for a provider. -/
structure RoutesFairly : Prop where
  succeeds : (∃ selection, (r.selectAccount now provider none).1 = .ok selection) ↔
    r.eligibleAccounts now provider ≠ [] ∧
      ¬(2 ≤ (r.eligibleAccounts now provider).length ∧ r.automaticAccounts now provider = [] ∧
        ∀ account ∈ r.eligibleAccounts now provider, account.isDefault = false)
  least : ∀ selection, (r.selectAccount now provider none).1 = .ok selection →
    ∃ account ∈ r.eligibleAccounts now provider, selection.accountId = account.accountId ∧
      ∀ other ∈ r.automaticAccounts now provider, account ∈ r.automaticAccounts now provider ∧
        r.providerRank provider account ≤ r.providerRank provider other
  turn : ∀ sessionId preferred current,
    r.sessionAccounts.find? (sessionId, provider) = some current →
      (provider ∈ r.commands → ∃ selection,
        (r.selectSessionAccount now provider sessionId preferred false).1 = .ok selection) ∧
      ∀ selection, (r.selectSessionAccount now provider sessionId preferred false).1 = .ok selection →
        selection.accountId = current

/-- One account is first both by the provider's own sessions and by the sessions of every provider. -/
def Undisturbed : Prop :=
  r.automaticAccounts now provider = [] ∨
    ∃ first ∈ r.automaticAccounts now provider, ∀ other ∈ r.automaticAccounts now provider,
      r.rank first ≤ r.rank other ∧ r.providerRank provider first ≤ r.providerRank provider other

/-! ## The checks -/

variable {r now provider} {r' : BackendRegistry}

/-- A registry in which at most cooldowns that had ended were forgotten. -/
structure Checked (r r' : BackendRegistry) (now : Nat) : Prop where
  commands : r'.commands = r.commands
  providerAccounts : r'.providerAccounts = r.providerAccounts
  sessionAccounts : r'.sessionAccounts = r.sessionAccounts
  eligible : ∀ provider account, r'.Eligible now provider account ↔ r.Eligible now provider account

theorem Checked.refl (r : BackendRegistry) (now : Nat) : Checked r r now :=
  ⟨rfl, rfl, rfl, fun _ _ => .rfl⟩

theorem Checked.trans {r'' : BackendRegistry} (h : Checked r r' now) (h' : Checked r' r'' now) :
    Checked r r'' now :=
  ⟨h'.commands.trans h.commands, h'.providerAccounts.trans h.providerAccounts,
    h'.sessionAccounts.trans h.sessionAccounts,
    fun provider account => (h'.eligible provider account).trans (h.eligible provider account)⟩

theorem activeCooldown_spec (r : BackendRegistry) (now : Nat) (provider accountId : String) :
    ∃ active r', r.activeCooldown now provider accountId = (active, r') ∧ Checked r r' now ∧
      (active = none ↔ (r.providerCooldowns.find? (provider, accountId)).all (·.endsAtMs ≤ now)) := by
  rw [activeCooldown]
  cases hfind : r.providerCooldowns.find? (provider, accountId) with
  | none => exact ⟨none, r, rfl, .refl r now, by simp⟩
  | some cooldown =>
    dsimp only
    split
    · next hended =>
      refine ⟨none, _, rfl, ⟨rfl, rfl, rfl, fun provider' account => ?_⟩, by simp [hended]⟩
      -- What is forgotten had ended.
      refine and_congr_right fun _ => and_congr_right fun _ => ?_
      dsimp only
      rw [Table.find?_delete]
      by_cases hkey : (provider', account.accountId) = (provider, accountId)
      · rw [hkey, hfind, Option.filter_some]
        simp [hended]
      · cases r.providerCooldowns.find? (provider', account.accountId) with
        | none => rfl
        | some other => rw [Option.filter_some, if_pos (by simpa using hkey)]
    · next hactive => exact ⟨_, r, rfl, .refl r now, by simp [hactive]⟩

/-- The check succeeds exactly for an eligible account. -/
theorem ensureAccountEligible_spec (r : BackendRegistry) (now : Nat) (provider : String)
    (account : ProviderAccountRecord) :
    ∃ result r', r.ensureAccountEligible now provider account = (result, r') ∧ Checked r r' now ∧
      (result = .ok () ↔ r.Eligible now provider account) := by
  rw [ensureAccountEligible, Eligible]
  split
  · next hdisabled =>
    refine ⟨_, r, rfl, .refl r now, iff_of_false (fun hok => by cases hok) fun h => ?_⟩
    rw [h.1] at hdisabled
    cases hdisabled
  · next henabled =>
    split
    · next hmissing =>
      refine ⟨_, r, rfl, .refl r now, iff_of_false (fun hok => by cases hok) fun h => ?_⟩
      rw [List.contains_iff_mem.2 h.2.1] at hmissing
      cases hmissing
    · next hcredential =>
      obtain ⟨active, r', hactive, hchecked, hnone⟩ :=
        activeCooldown_spec r now provider account.accountId
      rw [hactive]
      have henabled' : account.enabled = true := by simpa using henabled
      have hcredential' : (provider, account.accountId) ∈ r.providerAccountCredentials := by
        simpa using hcredential
      cases active with
      | none => exact ⟨_, r', rfl, hchecked, iff_of_true rfl ⟨henabled', hcredential', hnone.1 rfl⟩⟩
      | some _ =>
        refine ⟨_, r', rfl, hchecked, iff_of_false (fun hok => by cases hok) fun h => ?_⟩
        cases hnone.2 h.2.2

theorem checkAccounts_spec (r : BackendRegistry) (now : Nat) (provider : String)
    (accounts : List ProviderAccountRecord) :
    ∃ reasons r', Checked r r' now ∧ r.checkAccounts now provider accounts =
      (accounts.filter fun account => r.Eligible now provider account, reasons, r') := by
  induction accounts generalizing r with
  | nil => exact ⟨[], r, .refl r now, rfl⟩
  | cons account accounts ih =>
    obtain ⟨result, r', hensure, hchecked, hok⟩ :=
      ensureAccountEligible_spec r now provider account
    obtain ⟨reasons, r'', hchecked', hcheck⟩ := ih r'
    have hsame : (accounts.filter fun account => r'.Eligible now provider account)
        = accounts.filter fun account => r.Eligible now provider account :=
      List.filter_congr fun other _ => decide_eq_decide.2 (hchecked.eligible provider other)
    rw [hsame] at hcheck
    rw [checkAccounts, hensure]
    cases result with
    | ok _ =>
      refine ⟨reasons, r'', hchecked.trans hchecked', ?_⟩
      dsimp only
      rw [hcheck, List.filter_cons_of_pos (by simpa using hok.1 rfl)]
    | error error =>
      refine ⟨(account.label ++ ": " ++ error.text) :: reasons, r'', hchecked.trans hchecked', ?_⟩
      have hfails : ¬r.Eligible now provider account := fun h => nomatch hok.2 h
      dsimp only
      rw [hcheck, List.filter_cons_of_neg (by simpa using hfails)]

/-- A selection is a choice among the eligible accounts. -/
theorem selectAccount_eq (r : BackendRegistry) (now : Nat) (provider : String) :
    ∃ reasons, (r.selectAccount now provider none).1
      = r.route provider reasons (r.eligibleAccounts now provider) := by
  obtain ⟨reasons, r', hchecked, hcheck⟩ :=
    checkAccounts_spec r now provider (r.accounts provider)
  refine ⟨reasons, ?_⟩
  rw [selectAccount]
  dsimp only
  rw [hcheck]
  have hload : r'.load = r.load := by
    funext accountId
    rw [load, load, hchecked.sessionAccounts]
  have hrank : r'.rank = r.rank := by
    funext account
    rw [rank, rank, hload]
  have hleast : r'.leastLoaded provider reasons = r.leastLoaded provider reasons := by
    funext eligible
    rw [leastLoaded, leastLoaded, hrank, hload, accounts, accounts, hchecked.providerAccounts]
  dsimp only
  rw [route, route, hleast]
  rfl

/-! ## The choice -/

variable (r provider) in
theorem leastLoaded_spec (reasons : List String) (eligible : List ProviderAccountRecord) :
    (eligible = [] ∧ ∃ error, r.leastLoaded provider reasons eligible = .error error) ∨
      ∃ account selection, r.leastLoaded provider reasons eligible = .ok selection ∧
        account ∈ eligible ∧ selection.accountId = account.accountId ∧
        ∀ other ∈ eligible, r.rank account ≤ r.rank other := by
  rw [leastLoaded]
  cases hleast : Least.least r.rank eligible with
  | none => exact .inl ⟨Least.least_eq_none_iff.1 hleast, _, rfl⟩
  | some account =>
    exact .inr ⟨account, _, rfl, Least.least_mem hleast, rfl, fun _ => Least.least_le hleast⟩

variable (r provider) in
/-- What is chosen among eligible accounts, of which some are routed automatically. -/
theorem route_spec (reasons : List String) (eligible : List ProviderAccountRecord) :
    ((∃ selection, r.route provider reasons eligible = .ok selection) ↔
      eligible ≠ [] ∧ ¬(2 ≤ eligible.length ∧ eligible.filter (·.routingMode == .automatic) = [] ∧
        ∀ account ∈ eligible, account.isDefault = false)) ∧
      ∀ selection, r.route provider reasons eligible = .ok selection →
        ∃ account ∈ eligible, selection.accountId = account.accountId ∧
          ∀ other ∈ eligible.filter (·.routingMode == .automatic),
            account ∈ eligible.filter (·.routingMode == .automatic) ∧
              r.rank account ≤ r.rank other := by
  rw [route]
  split
  · next hmany =>
    have hne : eligible ≠ [] := by
      rintro rfl
      exact absurd hmany (Nat.not_lt_zero 1)
    dsimp only
    split
    · next hnone =>
      rw [List.isEmpty_iff] at hnone
      rw [hnone]
      cases hfind : eligible.find? (·.isDefault) with
      | none =>
        refine ⟨iff_of_false (fun ⟨_, h⟩ => nomatch h) fun h => h.2 ⟨hmany, rfl, ?_⟩, nofun⟩
        exact fun account hmem => Bool.eq_false_of_not_eq_true (List.find?_eq_none.1 hfind account hmem)
      | some default =>
        have hmem := List.mem_of_find?_eq_some hfind
        refine ⟨iff_of_true ⟨_, rfl⟩ ⟨hne, fun h => ?_⟩, fun selection h => ?_⟩
        · exact absurd (h.2.2 default hmem) (by simpa using List.find?_some hfind)
        · cases h
          exact ⟨default, hmem, rfl, fun _ hother => absurd hother List.not_mem_nil⟩
    · next hsome =>
      have hautomatic : eligible.filter (·.routingMode == .automatic) ≠ [] := fun h => by
        rw [h] at hsome
        exact hsome rfl
      obtain ⟨hempty, _⟩ | ⟨account, selection, hselect, hmem, hid, hleast⟩ :=
        leastLoaded_spec r provider reasons
          (eligible.filter (·.routingMode == .automatic))
      · exact absurd hempty hautomatic
      · refine ⟨iff_of_true ⟨selection, hselect⟩ ⟨hne, fun h => hautomatic h.2.1⟩,
          fun selection' h => ?_⟩
        cases hselect.symm.trans h
        exact ⟨account, List.mem_of_mem_filter hmem, hid, fun other hother => ⟨hmem, hleast other hother⟩⟩
  · next hfew =>
    obtain ⟨rfl, error, herror⟩ | ⟨account, selection, hselect, hmem, hid, hleast⟩ :=
      leastLoaded_spec r provider reasons eligible
    · rw [herror]
      exact ⟨iff_of_false (fun ⟨_, h⟩ => nomatch h) fun h => h.1 rfl, nofun⟩
    · refine ⟨iff_of_true ⟨selection, hselect⟩ ⟨List.ne_nil_of_mem hmem, fun h => hfew h.1⟩,
        fun selection' h => ?_⟩
      cases hselect.symm.trans h
      refine ⟨account, hmem, hid, fun other hother => ?_⟩
      -- There is only one account.
      have hone : eligible.length = 1 := by
        have hpos := List.length_pos_of_mem hmem
        omega
      obtain ⟨only, rfl⟩ := List.length_eq_one_iff.1 hone
      obtain rfl := List.mem_singleton.1 hmem
      obtain rfl := List.mem_singleton.1 (List.mem_of_mem_filter hother)
      exact ⟨hother, le_rfl⟩

/-- Inside a running turn the live handle keeps its account. -/
theorem selectSessionAccount_turn {sessionId current : String} (preferred : Option String)
    (hcurrent : r.sessionAccounts.find? (sessionId, provider) = some current) :
    (provider ∈ r.commands → ∃ selection,
        (r.selectSessionAccount now provider sessionId preferred false).1 = .ok selection) ∧
      ∀ selection, (r.selectSessionAccount now provider sessionId preferred false).1 = .ok selection →
        selection.accountId = current := by
  rw [selectSessionAccount, hcurrent]
  split
  · next hgone =>
    refine ⟨fun h => ?_, nofun⟩
    rw [List.contains_iff_mem.2 h] at hgone
    cases hgone
  · refine ⟨fun _ => ⟨_, rfl⟩, fun selection h => ?_⟩
    cases h
    rfl

theorem rank_eq {account other : ProviderAccountRecord} (h : r.rank account = r.rank other) :
    account.isDefault = other.isDefault ∧ account.accountId = other.accountId := by
  have htail := congrArg (fun k => ofLex (ofLex k).2) h
  have hdefault : (!account.isDefault) = !other.isDefault := congrArg Prod.fst htail
  exact ⟨Bool.not_inj hdefault, congrArg Prod.snd htail⟩

/-- Two accounts of one id are in the same order whichever sessions are counted. -/
theorem rank_le_iff {account other : ProviderAccountRecord}
    (hid : account.accountId = other.accountId) :
    r.rank account ≤ r.rank other ↔ r.providerRank provider account ≤ r.providerRank provider other := by
  rw [rank, rank, providerRank, providerRank, hid]
  simp only [Prod.Lex.toLex_le_toLex, lt_irrefl, false_or, true_and]

/-- Accounts are routed as promised exactly if the sessions of other providers, on accounts of the
same ids, leave the first of the automatically routed accounts the first. -/
theorem account_routing_fair_iff (r : BackendRegistry) (now : Nat) (provider : String) :
    r.RoutesFairly now provider ↔ r.Undisturbed now provider := by
  obtain ⟨reasons, hselect⟩ := selectAccount_eq r now provider
  obtain ⟨hsucceeds, hchoice⟩ :=
    route_spec r provider reasons (r.eligibleAccounts now provider)
  rw [← hselect] at hsucceeds hchoice
  constructor
  · intro h
    by_cases hnone : r.automaticAccounts now provider = []
    · exact .inl hnone
    · obtain ⟨automatic, hautomatic⟩ := List.exists_mem_of_ne_nil _ hnone
      have heligible := List.mem_of_mem_filter hautomatic
      obtain ⟨selection, hok⟩ := hsucceeds.2 ⟨List.ne_nil_of_mem heligible, fun hno => hnone hno.2.1⟩
      obtain ⟨account, hmem, hid, hleast⟩ := hchoice selection hok
      obtain ⟨account', hmem', hid', hleast'⟩ := h.least selection hok
      obtain ⟨hautomatic', _⟩ := hleast' automatic hautomatic
      -- Both have the id of the selection, and so neither is before the other in either order.
      have hsame : account'.accountId = account.accountId := hid'.symm.trans hid
      have hle : r.rank account' ≤ r.rank account := by
        rw [rank_le_iff hsame]
        exact (hleast' account (hleast automatic hautomatic).1).2
      exact .inr ⟨account', hautomatic', fun other hother =>
        ⟨hle.trans (hleast other hother).2, (hleast' other hother).2⟩⟩
  · intro h
    refine ⟨hsucceeds, fun selection hok => ?_, fun _ preferred _ => selectSessionAccount_turn preferred⟩
    obtain ⟨account, hmem, hid, hleast⟩ := hchoice selection hok
    refine ⟨account, hmem, hid, fun other hother => ⟨(hleast other hother).1, ?_⟩⟩
    obtain hnone | ⟨first, hfirst, hboth⟩ := h
    · rw [hnone] at hother
      cases hother
    · have hrank : r.rank account = r.rank first :=
        le_antisymm (hleast first hfirst).2 (hboth account (hleast first hfirst).1).1
      have hprovider : r.providerRank provider account ≤ r.providerRank provider first :=
        (rank_le_iff (rank_eq hrank).2).1 hrank.le
      exact hprovider.trans (hboth other hother).2

/-- Where no session of another provider is on an account of the same id, accounts are routed as
promised. -/
theorem undisturbed_of_separate (h : ∀ row ∈ r.sessionAccounts.rows,
      ∀ account ∈ r.automaticAccounts now provider, row.2 = account.accountId → row.1.2 = provider) :
    r.Undisturbed now provider := by
  have hrank : ∀ account ∈ r.automaticAccounts now provider,
      r.rank account = r.providerRank provider account := by
    intro account haccount
    have hload : r.load account.accountId = r.providerLoad provider account.accountId := by
      refine List.countP_congr fun row hrow => ?_
      rw [beq_iff_eq, Bool.and_eq_true_iff, beq_iff_eq, beq_iff_eq]
      exact ⟨fun hid => ⟨h row hrow account haccount hid, hid⟩, And.right⟩
    rw [rank, providerRank, hload]
  cases hleast : Least.least r.rank (r.automaticAccounts now provider) with
  | none => exact .inl (Least.least_eq_none_iff.1 hleast)
  | some first =>
    have hfirst := Least.least_mem hleast
    refine .inr ⟨first, hfirst, fun other hother => ?_⟩
    have hle := Least.least_le hleast hother
    exact ⟨hle, hrank first hfirst ▸ hrank other hother ▸ hle⟩

end BackendRegistry

/-! ## Accounts of one id -/

/-- Two accounts of a provider, and a session of another provider on an account with the id of the
first. -/
def sharedIds : BackendRegistry where
  commands := ["p"]
  providerAccounts := (∅ : Table _ _).insertOrIgnore "p"
    [⟨"x", "X", true, true, .automatic⟩, ⟨"y", "Y", true, false, .automatic⟩]
  providerAccountCredentials := [("p", "x"), ("p", "y")]
  providerCooldowns := ∅
  sessionAccounts := (∅ : Table _ _).insertOrIgnore ("s", "q") "x"

/-- The default is passed over though its provider has no live session. -/
theorem shared_id_counts_twice :
    ¬∀ (r : BackendRegistry) (now : Nat) (provider : String), r.RoutesFairly now provider := by
  intro h
  have hselect : (sharedIds.selectAccount 0 "p" none).1 = .ok ⟨"y", "Y", "least loaded"⟩ := by decide
  obtain ⟨account, hmem, hid, hleast⟩ := (h sharedIds 0 "p").least _ hselect
  have hbefore : ∀ account ∈ sharedIds.eligibleAccounts 0 "p", account.accountId = "y" →
      ¬sharedIds.providerRank "p" account
        ≤ sharedIds.providerRank "p" ⟨"x", "X", true, true, .automatic⟩ := by decide
  exact hbefore account hmem hid.symm (hleast _ (by decide)).2

end Nakode.Routing
