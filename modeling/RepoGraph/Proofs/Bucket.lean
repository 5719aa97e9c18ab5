import Mathlib.Tactic.Common
import RepoGraph.Bucket.Object

/-!
# The keys of copies

The key of a copy is made from what stands before every key of the bucket and from the name of the
job, without the slashes that this name begins with. Jobs whose names begin with no slash do not
share a key (`key_artifactObject_eq_iff`).
-/

namespace RepoGraph.Bucket

variable {b b' : Bucket}

/-- Behind the same start two keys are the same exactly when the names are, but for the slashes that
they begin with. -/
theorem key_eq_iff (h : b.keyStart = b'.keyStart) {name name' : String} :
    b.key name = b'.key name' ↔
      name.toList.dropWhile (· == '/') = name'.toList.dropWhile (· == '/') := by
  rw [key, key, h, String.ofList_inj, List.append_cancel_left_eq, List.cons.injEq]
  exact and_iff_right rfl

/-- The name of the copy for a job whose name does not begin with a slash loses one only if the
job's name is empty. -/
theorem dropWhile_artifact {id : String} (h : id.toList.head? ≠ some '/') :
    (id ++ "/artifact.json").toList.dropWhile (· == '/') =
      if id.toList = [] then "artifact.json".toList else id.toList ++ "/artifact.json".toList := by
  rw [String.toList_append]
  cases hid : id.toList with
  | nil => rfl
  | cons c cs =>
    have hc : c ≠ '/' := fun heq => h (by rw [hid, heq, List.head?_cons])
    simp [hc]

/-- Two jobs whose names begin with no slash have the same key exactly when they are one. -/
theorem key_artifactObject_eq_iff (hstart : b.keyStart = b'.keyStart) {id id' : String}
    (h : id.toList.head? ≠ some '/') (h' : id'.toList.head? ≠ some '/') (a a' : Artifact) :
    (b.artifactObject id a).key = (b'.artifactObject id' a').key ↔ id = id' := by
  show b.key (id ++ "/artifact.json") = b'.key (id' ++ "/artifact.json") ↔ id = id'
  rw [key_eq_iff hstart, dropWhile_artifact h, dropWhile_artifact h', ← String.toList_inj]
  constructor
  · intro heq
    -- A name that is not empty makes the copy's name longer than that for the empty one.
    have hlength := congrArg List.length heq
    split at heq <;> split at heq
    · rename_i hid hid'
      rw [hid, hid']
    · rename_i hid hid'
      simp [hid, hid'] at hlength
    · rename_i hid hid'
      simp [hid, hid'] at hlength
    · exact List.append_cancel_right heq
  · intro heq
    rw [heq]

end RepoGraph.Bucket
