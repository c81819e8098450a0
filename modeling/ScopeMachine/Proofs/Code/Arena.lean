import ScopeMachine.Proofs.Code.Loading

/-!
# Offers to an arena

Templates are offered to an arena one after the other, and it takes some and refuses others. Those
that it takes are numbered from 0 on without a gap (`entries_after`), and stay where they are. Since
the scope around a template is an earlier one, the way outwards ends, after at most as many steps as
the number of the template says (`exists_nesting`).
-/

namespace ScopeMachine.Arena

def after (a : Arena) (offered : List Template) : Arena :=
  offered.foldl (fun a t => (a.push t).2) a

def verdicts : Arena → List Template → List (Except LoadError UInt16)
  | _, [] => []
  | a, t :: offered => (a.push t).1 :: (a.push t).2.verdicts offered

def taken (a : Arena) (offered : List Template) : List (UInt16 × Template) :=
  ((a.verdicts offered).zip offered).filterMap fun (verdict, t) => verdict.toOption.map (·, t)

variable {a b : Arena} {t : Template} {id : UInt16}

/-! ## Templates by number -/

theorem get_eq_ok : a.get id = .ok t ↔ a.templates[id.toNat]? = some t := by
  unfold get
  split
  next u hu => simp [hu]
  next hnone => simp [hnone]

theorem toNat_ofNat_of_lt_size (h : n < a.size) : (UInt16.ofNat n).toNat = n :=
  UInt16.toNat_ofNat_of_lt' (Nat.lt_of_lt_of_le h a.size_le)

theorem length_entries (a : Arena) : a.entries.length = a.size := by
  simp [entries, size]

theorem getElem?_entries : a.entries[n]? = some (id, t) ↔ id.toNat = n ∧ a.get id = .ok t := by
  have hentry : a.entries[n]? = a.templates[n]?.map (UInt16.ofNat n, ·) := by
    simp [entries, List.getElem?_zipIdx, Function.comp_def]
  rw [hentry, get_eq_ok, Option.map_eq_some_iff]
  constructor
  · rintro ⟨u, hu, heq⟩
    obtain ⟨rfl, rfl⟩ := Prod.mk.inj heq
    have hn := toNat_ofNat_of_lt_size (Array.getElem?_eq_some_iff.mp hu).1
    exact ⟨hn, by rwa [hn]⟩
  · rintro ⟨rfl, ht⟩
    exact ⟨t, ht, by rw [UInt16.ofNat_toNat]⟩

theorem entries_eq_zip (a : Arena) :
    a.entries = ((List.range tableLimit).map UInt16.ofNat).zip a.templates.toList := by
  have hsize : a.templates.size ≤ tableLimit := a.size_le
  apply List.ext_getElem
  · simp [entries, hsize]
  · intro n _ _
    simp [entries]

theorem map_fst_entries (a : Arena) :
    a.entries.map Prod.fst = (List.range a.size).map UInt16.ofNat := by
  apply List.ext_getElem
  · simp [entries, size]
  · intro n _ _
    simp [entries]

/-! ## Offers -/

theorem entries_push (h : a.push t = (.ok id, b)) : b.entries = a.entries ++ [(id, t)] := by
  obtain ⟨c, hc, hpush⟩ := push_of_objection? (objection?_of_push (congrArg Prod.fst h))
  cases h.symm.trans hc
  simp [entries, hpush, List.zipIdx_append]

theorem push_of_error (h : (a.push t).1 = .error e) : (a.push t).2 = a := by
  cases hobjection : a.objection? t with
  | none =>
    obtain ⟨c, hc, -⟩ := push_of_objection? hobjection
    rw [hc] at h
    cases h
  | some e => rw [push_of_objection?_eq_some hobjection]

theorem entries_after (a : Arena) (offered : List Template) :
    (a.after offered).entries = a.entries ++ a.taken offered := by
  induction offered generalizing a with
  | nil => simp [after, taken, verdicts]
  | cons t offered ih =>
    have hrest := ih (a.push t).2
    simp only [after, List.foldl_cons, taken, verdicts, List.zip_cons_cons] at hrest ⊢
    rw [hrest]
    cases hverdict : (a.push t).1 with
    | error e =>
      rw [push_of_error hverdict]
      simp [Except.toOption]
    | ok id =>
      rw [entries_push (Prod.ext hverdict rfl)]
      simp [Except.toOption]

theorem get_after (h : a.get id = .ok t) (offered : List Template) :
    (a.after offered).get id = .ok t := by
  have hin : a.entries[id.toNat]? = some (id, t) := getElem?_entries.mpr ⟨rfl, h⟩
  have hlt := (List.getElem?_eq_some_iff.mp hin).1
  have hlater : (a.after offered).entries[id.toNat]? = some (id, t) := by
    rwa [entries_after, List.getElem?_append_left hlt]
  exact (getElem?_entries.mp hlater).2

/-! ## The way outwards -/

theorem nestingFrom_of_parent?_eq_none (ht : a.templates[n]? = some t) (hp : t.parent = none)
    (depth : Nat) : a.nestingFrom n depth = .ok depth := by
  rw [nestingFrom]
  split
  next hnone => cases ht.symm.trans hnone
  next u hu =>
    cases ht.symm.trans hu
    split
    next => rfl
    next p hp' => cases hp.symm.trans hp'

theorem nestingFrom_of_parent?_eq_some (ht : a.templates[n]? = some t) (hp : t.parent = some p)
    (depth : Nat) : a.nestingFrom n depth = a.nestingFrom p.toNat (depth + 1) := by
  rw [nestingFrom]
  split
  next hnone => cases ht.symm.trans hnone
  next u hu =>
    cases ht.symm.trans hu
    split
    next hnone => cases hp.symm.trans hnone
    next q hq =>
      cases hp.symm.trans hq
      rfl

/-- The way outwards ends, and does not depend on what was counted before. -/
theorem exists_nesting (h : n < a.size) :
    ∃ d, d ≤ n ∧ ∀ depth, a.nestingFrom n depth = .ok (depth + d) := by
  -- each step leads to an earlier template
  induction n using Nat.strongRecOn with
  | ind n ih =>
    obtain ⟨t, ht⟩ : ∃ t, a.templates[n]? = some t := ⟨_, Array.getElem?_eq_getElem h⟩
    cases hp : t.parent with
    | none => exact ⟨0, Nat.zero_le n, fun depth => nestingFrom_of_parent?_eq_none ht hp depth⟩
    | some p =>
      have hlt := a.parent_lt n t p ht hp
      obtain ⟨d, hd, hnesting⟩ := ih p.toNat hlt (Nat.lt_trans hlt h)
      refine ⟨d + 1, by omega, fun depth => ?_⟩
      rw [nestingFrom_of_parent?_eq_some ht hp, hnesting]
      exact congrArg Except.ok (by omega)

theorem exists_nestingDepth (h : id.toNat < a.size) :
    ∃ t d, a.get id = .ok t ∧ a.nestingDepth id = .ok d ∧ d ≤ id.toNat ∧
      match t.parent with
      | none => d = 0
      | some p => ∃ e, a.nestingDepth p = .ok e ∧ d = e + 1 := by
  obtain ⟨t, ht⟩ : ∃ t, a.templates[id.toNat]? = some t := ⟨_, Array.getElem?_eq_getElem h⟩
  obtain ⟨d, hd, hnesting⟩ := exists_nesting h
  refine ⟨t, d, get_eq_ok.mpr ht, ?_, hd, ?_⟩
  · rw [nestingDepth, hnesting, Nat.zero_add]
  · cases hp : t.parent with
    | none =>
      have hnone := (hnesting 0).symm.trans (nestingFrom_of_parent?_eq_none ht hp 0)
      simpa using hnone
    | some p =>
      have hlt := a.parent_lt id.toNat t p ht hp
      obtain ⟨e, -, hparent⟩ := exists_nesting (Nat.lt_trans hlt h)
      have hsome := (hnesting 0).symm.trans (nestingFrom_of_parent?_eq_some ht hp 0)
      rw [hparent] at hsome
      refine ⟨e, by rw [nestingDepth, hparent, Nat.zero_add], ?_⟩
      have hsum := Except.ok.inj hsome
      omega

/-! ## Histories of offers -/

theorem after_append (a : Arena) (front back : List Template) :
    a.after (front ++ back) = (a.after front).after back :=
  List.foldl_append

theorem taken_empty (offered : List Template) :
    empty.taken offered = (empty.after offered).entries := by
  rw [entries_after]
  rfl

theorem exists_push_iff : (∃ id, (a.push t).1 = .ok id) ↔ a.objection? t = none := by
  constructor
  · rintro ⟨id, hid⟩
    exact objection?_of_push hid
  · intro hnone
    obtain ⟨b, hb, -⟩ := push_of_objection? hnone
    exact ⟨_, congrArg Prod.fst hb⟩

/-- What an arena that was empty makes of the templates that are offered to it. It takes those that
find room, whose scope around is there already and whose names are distinct; it numbers what it
takes, keeps it for ever and lists it in order; and each template is as deep as the links outwards
say. -/
structure Orderly (offered : List Template) : Prop where
  numbers : (empty.taken offered).map Prod.fst =
    (List.range (empty.taken offered).length).map UInt16.ofNat
  length_taken : (empty.taken offered).length ≤ 65536
  taken_iff : ∀ front t back, offered = front ++ t :: back →
    ((∃ id, ((empty.after front).push t).1 = .ok id) ↔
      (empty.after front).size < 65536 ∧
        (∀ p, t.parent = some p → p.toNat < (empty.after front).size) ∧ t.names.Nodup)
  refused : ∀ front t back e, offered = front ++ t :: back →
    ((empty.after front).push t).1 = .error e → empty.after (front ++ [t]) = empty.after front
  stays : ∀ front back id t, offered = front ++ back →
    (empty.after front).get id = .ok t → (empty.after offered).get id = .ok t
  earlier : ∀ id t p, (empty.after offered).get id = .ok t → t.parent = some p → p < id
  distinct : ∀ id t, (empty.after offered).get id = .ok t → t.names.Nodup
  entries : (empty.after offered).entries = empty.taken offered
  entries_eq_zip : (empty.after offered).entries =
    ((List.range 65536).map UInt16.ofNat).zip (empty.after offered).templates.toList
  entries_iff : ∀ n id t, (empty.after offered).entries[n]? = some (id, t) ↔
    id.toNat = n ∧ (empty.after offered).get id = .ok t
  depth : ∀ id, id.toNat < (empty.after offered).size →
    ∃ t d, (empty.after offered).get id = .ok t ∧ (empty.after offered).nestingDepth id = .ok d ∧
      d ≤ id.toNat ∧
      match t.parent with
      | none => d = 0
      | some p => ∃ e, (empty.after offered).nestingDepth p = .ok e ∧ d = e + 1

/-- Whatever templates are offered to an empty arena, and whether it takes them or not, all is in
order. -/
theorem offers_are_orderly (offered : List Template) : Orderly offered where
  numbers := by rw [taken_empty, length_entries, map_fst_entries]
  length_taken := by
    rw [taken_empty, length_entries]
    exact size_le _
  taken_iff front t back _ := exists_push_iff.trans objection?_eq_none_iff
  refused front t back e _ he := by
    rw [after_append]
    exact push_of_error he
  stays front back id t h ht := by
    rw [h, after_append]
    exact get_after ht back
  earlier id t p ht hp := UInt16.lt_iff_toNat_lt.mpr (parent_lt _ _ _ _ (get_eq_ok.mp ht) hp)
  distinct id t ht := names_nodup _ _ _ (get_eq_ok.mp ht)
  entries := (taken_empty offered).symm
  entries_eq_zip := Arena.entries_eq_zip _
  entries_iff n id t := getElem?_entries
  depth id h := exists_nestingDepth h

end ScopeMachine.Arena
