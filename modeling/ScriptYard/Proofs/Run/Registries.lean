import ScriptYard.Capability.Registry
import ScriptYard.Proofs.Value.Fields
import ScriptYard.Script.Validation

/-!
# Registries and what validators know of them

A registry is `CapabilityRegistry.Built` if it comes from the empty one by the operations of registries. Its
names stand in ascending order, each above a capability of that name (`Built.sorted`, `Built.named`). A
validator that is given the list of a registry (`Validator.withCapabilities`) knows the actions of its
capabilities, no more and no less (`Built.withCapabilities_list`).
-/

namespace ScriptYard

namespace CapabilityRegistry

variable {δ : Type}

/-- The registries that the operations make out of the empty one. -/
inductive Built : CapabilityRegistry δ → Prop where
  | empty : Built []
  | register {r : CapabilityRegistry δ} (h : Built r) (c : Capability δ) : Built (r.register c)
  | unregister {r : CapabilityRegistry δ} (h : Built r) (name : String) : Built (r.unregister name)
  | setEnabled {r r' : CapabilityRegistry δ} (h : Built r) (name : String) (enabled : Bool)
    (h_ok : r.setEnabled name enabled = .ok r') : Built r'
  | initializeAll {r : CapabilityRegistry δ} (h : Built r) : Built r.initializeAll

/-- Each capability stands under its own name, and the names are in order. -/
structure Orderly (r : CapabilityRegistry δ) : Prop where
  /-- The names are in order. -/
  sorted : Fields.Sorted r
  named : ∀ e ∈ r, e.1 = e.2.capability.profile.name

theorem Orderly.insert {r : CapabilityRegistry δ} (h : Orderly r) (e : RegisteredCapability δ) :
    Orderly (Fields.insert r e.capability.profile.name e) where
  sorted := h.sorted.insert _ _
  named e' h_e' := by
    rcases Fields.mem_insert h_e' with rfl | h_e'
    · rfl
    · exact h.named e' h_e'

theorem Built.orderly {r : CapabilityRegistry δ} (h : Built r) : Orderly r := by
  induction h with
  | empty => exact ⟨List.Pairwise.nil, fun e h_e => by cases h_e⟩
  | register _ c ih => exact ih.insert ⟨c, true⟩
  | unregister _ name ih =>
    exact ⟨List.Pairwise.filter _ ih.sorted, fun e h_e => ih.named e (List.mem_filter.mp h_e).1⟩
  | setEnabled _ name enabled h_ok ih =>
    rw [CapabilityRegistry.setEnabled] at h_ok
    split at h_ok
    · next e h_get =>
      obtain rfl := Except.ok.inj h_ok
      -- so that the new entry takes the place of the old one
      obtain rfl : name = e.capability.profile.name := ih.named _ (Fields.mem_of_get? h_get)
      exact ih.insert { e with enabled := enabled }
    · cases h_ok
  | initializeAll _ ih =>
    refine ⟨ih.sorted.map _, fun e h_e => ?_⟩
    obtain ⟨e', h_e', rfl⟩ := List.mem_map.mp h_e
    rw [ih.named e' h_e']
    simp only
    split <;> rfl

end CapabilityRegistry

/-- The validator that knows the capabilities of a list. -/
def Validator.withCapabilities (v : Validator) (infos : List CapabilityInfo) : Validator :=
  { v with capabilities := some (Fields.ofList (infos.map fun i => (i.profile.name, i.profile.actions))) }

/-- A validator that is given the list of a registry knows the actions of its capabilities. -/
theorem CapabilityRegistry.Built.withCapabilities_list {δ : Type} {r : CapabilityRegistry δ} (h : r.Built)
    (v : Validator) : v.withCapabilities r.list = { v with capabilities := some r.actions } := by
  have h_pairs : r.list.map (fun i => (i.profile.name, i.profile.actions)) = r.actions := by
    rw [CapabilityRegistry.list, List.map_map]
    refine List.map_congr_left fun e h_e => ?_
    rw [h.orderly.named e h_e]
    rfl
  rw [Validator.withCapabilities, h_pairs]
  have h_sorted : Fields.Sorted r.actions := h.orderly.sorted.map fun e => e.2.capability.profile.actions
  rw [Fields.ofList_of_sorted h_sorted]

end ScriptYard
