import Mathlib

/-!
# Leases that run out

A lease is held on a key until a time, and whoever took or renewed it goes on with a claim on the
key that lasts as long. `Backed` says that every claim that has not run out still rests on a lease
that outlasts it. The rules say what keeps it: the clock, a renewal that shortens nothing, the
release of a lease on which no running claim rests, and the end of the claims on a key.
-/

namespace Lease

variable {κ : Type} {lease lease' : κ → Option Int} {now : Int} {claims : List (κ × Int)} {k : κ}

/-- Every claim that has not run out rests on a lease that lasts as long. -/
def Backed (lease : κ → Option Int) (now : Int) (claims : List (κ × Int)) : Prop :=
  ∀ claim ∈ claims, now < claim.2 → ∃ expiry, lease claim.1 = some expiry ∧ claim.2 ≤ expiry

namespace Backed

theorem tick {now' : Int} (h : Backed lease now claims) (hle : now ≤ now') :
    Backed lease now' claims := by
  intro claim hclaim hruns
  exact h claim hclaim (by omega)

theorem mono {claims' : List (κ × Int)} (h : Backed lease now claims) (hsub : claims' ⊆ claims) :
    Backed lease now claims' :=
  fun claim hclaim => h claim (hsub hclaim)

/-- A renewal that ends no earlier than the claims on its key. -/
theorem renew {expiry : Int} (h : Backed lease now claims)
    (hkey : lease' k = some expiry) (hrest : ∀ k', k' ≠ k → lease' k' = lease k')
    (hlasts : ∀ claim ∈ claims, claim.1 = k → claim.2 ≤ expiry) : Backed lease' now claims := by
  intro claim hclaim hruns
  by_cases heq : claim.1 = k
  · exact ⟨expiry, by rw [heq]; exact hkey, hlasts claim hclaim heq⟩
  · obtain ⟨e, he, hle⟩ := h claim hclaim hruns
    exact ⟨e, by rw [hrest _ heq]; exact he, hle⟩

/-- The end of a lease on which no running claim rests. -/
theorem release (h : Backed lease now claims) (hrest : ∀ k', k' ≠ k → lease' k' = lease k')
    (hover : ∀ claim ∈ claims, claim.1 = k → claim.2 ≤ now) : Backed lease' now claims := by
  intro claim hclaim hruns
  have hne : claim.1 ≠ k := by
    intro heq
    have := hover claim hclaim heq
    omega
  obtain ⟨e, he, hle⟩ := h claim hclaim hruns
  exact ⟨e, by rw [hrest _ hne]; exact he, hle⟩

/-- The claims on a key end, and with them the need for its lease. -/
theorem finish [DecidableEq κ] (h : Backed lease now claims)
    (hrest : ∀ k', k' ≠ k → lease' k' = lease k') :
    Backed lease' now (claims.filter fun claim => claim.1 != k) := by
  intro claim hclaim hruns
  obtain ⟨hmem, hne⟩ := List.mem_filter.1 hclaim
  obtain ⟨e, he, hle⟩ := h claim hmem hruns
  exact ⟨e, by rw [hrest _ (by simpa using hne)]; exact he, hle⟩

/-- A new claim on a lease that lasts as long. -/
theorem cons {claim : κ × Int} (h : Backed lease now claims)
    (hnew : now < claim.2 → ∃ expiry, lease claim.1 = some expiry ∧ claim.2 ≤ expiry) :
    Backed lease now (claim :: claims) := by
  intro c hc hruns
  rcases List.mem_cons.1 hc with rfl | hc
  · exact hnew hruns
  · exact h c hc hruns

end Backed

end Lease
