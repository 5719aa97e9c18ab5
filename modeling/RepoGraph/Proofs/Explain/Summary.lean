import RepoGraph.Explain.Summary
import RepoGraph.Proofs.Names

/-!
# What a summary does not depend on

A summary counts, ranks and sorts. Each of these comes to the same for any order of what it is
given, so that artifacts with the same nodes, edges and roles have one summary
(`ofArtifact_eq_of_perm`).
-/

namespace RepoGraph.Summary

variable {names others : List String}

/-- How often names occur does not depend on their order. -/
theorem counts_eq_of_perm (h : names.Perm others) : counts names = counts others := by
  rw [counts, counts, Names.sorted_congr fun _ => h.mem_iff]
  exact List.map_congr_left fun name _ => by rw [h.count_eq]

/-- The ranking of names does not depend on their order. -/
theorem ranking_eq_of_perm (h : names.Perm others) : ranking names = ranking others := by
  rw [ranking, ranking, counts_eq_of_perm h]

/-- Where requests enter does not depend on the order of the roles. -/
theorem entryPaths_eq_of_perm {s t : Table String} (h : s.entries.Perm t.entries) :
    entryPaths s = entryPaths t :=
  Names.mergeSort_eq_of_perm ((h.filter _).map Prod.fst)

/-- Artifacts with the same nodes, edges and roles, in whichever order, have one summary. -/
theorem ofArtifact_eq_of_perm {a b : Artifact} (hnodes : a.nodes.Perm b.nodes)
    (hedges : a.edges.Perm b.edges) (hroles : a.roles.entries.Perm b.roles.entries) (top : Int) :
    ofArtifact a top = ofArtifact b top := by
  have hlanguages : ((a.nodes.filterMap Node.language).filter (· != "")).Perm
      ((b.nodes.filterMap Node.language).filter (· != "")) := (hnodes.filterMap _).filter _
  have htargets : (a.edges.map Edge.target).Perm (b.edges.map Edge.target) := hedges.map _
  have hvalues : a.roles.values.Perm b.roles.values := hroles.map Prod.snd
  rw [ofArtifact, ofArtifact, hnodes.length_eq, hedges.length_eq, ranking_eq_of_perm hlanguages,
    ranking_eq_of_perm htargets, entryPaths_eq_of_perm hroles, counts_eq_of_perm hvalues]

end RepoGraph.Summary
