import Statechart.Proofs.Blueprint.Acceptance

/-!
# `Statechart.Proofs.Chart.Built`: the charts that can be built

A chart is built by calls, or it is assembled from a blueprint. An assembled chart could have
been built by calls as well (`Built.grown`), so every built chart is a tree.
-/

set_option autoImplicit false

namespace Statechart

namespace Chart

variable {chart : Chart}

/-- A chart that calls lead to, or that is assembled from a blueprint. -/
def Built (chart : Chart) : Prop :=
  chart.Grown ∨ ∃ blueprint : Blueprint, ∃ registry, blueprint.assemble registry = .ok chart

namespace Built

/-- The states of a blueprint can be placed in the order in which they are made. -/
theorem grown (h : chart.Built) : chart.Grown := by
  rcases h with hgrown | ⟨blueprint, registry, hassemble⟩
  · exact hgrown
  · obtain ⟨⟨start, states⟩, hresolve, -⟩ := bind_eq_ok.1 hassemble
    -- The order in which the states were made is one in which they can be placed.
    obtain ⟨order, -, -, harranged, -⟩ := Blueprint.of_resolve hresolve
    obtain ⟨hwellFormed, -, start, hstart, hfinished⟩ := Blueprint.of_assemble hassemble
    exact (hwellFormed.foldlM_place_eq hstart harranged hfinished).2

/-- A built chart is one tree of well-formed states below the root, whichever way it was built. -/
theorem tree (h : chart.Built) : chart.Tree :=
  h.grown.tree

end Built

end Chart

end Statechart
