import ScopeMachine.CodeUnit.Load

/-!
# What loading keeps

A template that an arena accepts declares no name twice and is added at the end. A draft becomes a
unit as it is.
-/

namespace ScopeMachine

namespace Arena

theorem objection?_of_push (h : (push a t).1 = .ok n) : a.objection? t = none := by
  unfold push at h
  split at h
  · cases h
  · assumption

theorem push_of_objection? (h : objection? a t = none) :
    ∃ b, a.push t = (.ok (UInt16.ofNat a.templates.size), b) ∧
      b.templates = a.templates.push t := by
  unfold push
  split
  · simp_all
  · split
    exact ⟨_, rfl, rfl⟩

theorem push_of_objection?_eq_some (h : objection? a t = some e) : a.push t = (.error e, a) := by
  unfold push
  split <;> simp_all

theorem names_nodup_of_push (h : (push a t).1 = .ok n) : t.names.Nodup :=
  (objection?_eq_none_iff.mp (objection?_of_push h)).2.2

end Arena

namespace CodeUnit

theorem ofDraft_of_fault? (h : d.fault? = none) : ofDraft d = .ok ⟨d, h⟩ := by
  unfold ofDraft
  split
  · rfl
  · simp_all

theorem exists_ofDraft_iff : (∃ u, ofDraft d = .ok u) ↔ d.fault? = none := by
  refine ⟨?_, fun h => ⟨_, ofDraft_of_fault? h⟩⟩
  rintro ⟨u, h⟩
  unfold ofDraft at h
  split at h
  · assumption
  · cases h

theorem ofDraft_eq_error_iff : ofDraft d = .error e ↔ d.fault? = some e := by
  unfold ofDraft
  split <;> simp_all

theorem toDraft_of_ofDraft (h : ofDraft d = .ok u) : u.toDraft = d := by
  unfold ofDraft at h
  split at h
  · cases h
    rfl
  · cases h

end CodeUnit

end ScopeMachine
