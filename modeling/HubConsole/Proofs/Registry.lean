import HubConsole.Command.Basic
import HubConsole.Proofs.Result

/-! # The names of a registry

The entries of a registry stand in the order of their names (`Registry.Sorted`), and a registry that
is made of some names has one entry for each of them and no others (`addAll_spec`). It can be made
of names without repetition (`exists_addAll`), and where one repeats it is refused for the first that
does (`addAll_eq_error_iff`). So the console has one, with the names of all commands
(`mem_names_registry`). -/

namespace HubConsole.Command
open Result

theorem Doc.name_of (name : String) : (Doc.of name).name = name := by
  unfold Doc.of
  cases h : manual.find? fun d => d.name == name with
  | none => rfl
  | some d => simpa using List.find?_some h

namespace Registry
variable {r t : Registry} {d e : Doc} {ds : List Doc} {name : String} {names : List String}

/-- The entries stand in the order of their names, each name once. -/
def Sorted (r : Registry) : Prop := r.docs.Pairwise fun d e => d.name < e.name

theorem Sorted.pairwise_names (h : r.Sorted) : r.names.Pairwise (· < ·) := List.pairwise_map.2 h

theorem sorted_empty : Sorted .empty := List.Pairwise.nil

theorem perm_insertDoc (d : Doc) (ds : List Doc) : (insertDoc d ds).Perm (d :: ds) := by
  induction ds with
  | nil => exact List.Perm.refl _
  | cons e ds ih =>
    unfold insertDoc
    split
    · exact List.Perm.refl _
    · exact (ih.cons e).trans (List.Perm.swap d e ds)

theorem mem_insertDoc : e ∈ insertDoc d ds ↔ e = d ∨ e ∈ ds := by
  rw [(perm_insertDoc d ds).mem_iff, List.mem_cons]

theorem pairwise_insertDoc (h : ds.Pairwise fun d e => d.name < e.name)
    (hnew : ∀ e ∈ ds, e.name ≠ d.name) :
    (insertDoc d ds).Pairwise fun d e => d.name < e.name := by
  induction ds with
  | nil => exact List.pairwise_singleton _ _
  | cons f ds ih =>
    obtain ⟨hf, hds⟩ := List.pairwise_cons.1 h
    unfold insertDoc
    split
    · next hlt =>
      refine List.pairwise_cons.2 ⟨fun e he => ?_, h⟩
      rcases List.mem_cons.1 he with rfl | he
      · exact hlt
      · exact String.lt_trans hlt (hf e he)
    · next hlt =>
      have hgt : f.name < d.name := by
        refine String.not_le.1 fun hle => ?_
        exact hnew f List.mem_cons_self (String.le_antisymm hle (String.not_lt.1 hlt)).symm
      refine List.pairwise_cons.2 ⟨fun e he => ?_, ih hds fun e he => ?_⟩
      · rcases mem_insertDoc.1 he with rfl | he
        · exact hgt
        · exact hf e he
      · exact hnew e (List.mem_cons_of_mem _ he)

theorem get?_eq_none_iff : r.get? name = none ↔ name ∉ r.names := by
  simp [get?, names, List.find?_eq_none]

theorem add_eq_ok_iff :
    r.add name = .ok t ↔ name ∉ r.names ∧ t = ⟨insertDoc (.of name) r.docs⟩ := by
  rw [← get?_eq_none_iff]
  unfold add
  cases r.get? name with
  | none => simpa using eq_comm
  | some d => simp

theorem add_eq_error_iff {error : Error} :
    r.add name = .error error ↔ name ∈ r.names ∧ .duplicate name = error := by
  have hnames : r.get? name = none ↔ name ∉ r.names := get?_eq_none_iff
  unfold add
  cases h : r.get? name with
  | none => simp [hnames.1 h]
  | some d =>
    have hmem : name ∈ r.names := Decidable.not_not.1 fun hnot => by simp [hnames.2 hnot] at h
    simp [hmem]

theorem Sorted.add (h : r.Sorted) (hadd : r.add name = .ok t) : t.Sorted := by
  obtain ⟨hnew, rfl⟩ := add_eq_ok_iff.1 hadd
  refine pairwise_insertDoc h fun e he hname => hnew ?_
  rw [Doc.name_of] at hname
  exact List.mem_map.2 ⟨e, he, hname⟩

theorem perm_add (h : r.add name = .ok t) : t.docs.Perm (.of name :: r.docs) := by
  obtain ⟨-, rfl⟩ := add_eq_ok_iff.1 h
  exact perm_insertDoc _ _

theorem mem_names_add {n : String} (h : r.add name = .ok t) :
    n ∈ t.names ↔ n = name ∨ n ∈ r.names := by
  rw [names, ((perm_add h).map _).mem_iff, List.map_cons, List.mem_cons, Doc.name_of, names]

theorem addAll_spec (h : r.Sorted) (hadd : r.addAll names = .ok t) :
    t.Sorted ∧ t.docs.Perm (r.docs ++ names.map .of) := by
  induction names generalizing r with
  | nil =>
    obtain rfl := pure_eq_ok_iff.1 hadd
    simp [h]
  | cons name names ih =>
    obtain ⟨u, hu, hadd⟩ := bind_eq_ok_iff.1 hadd
    obtain ⟨hsorted, hdocs⟩ := ih (h.add hu) hadd
    refine ⟨hsorted, hdocs.trans (((perm_add hu).append_right _).trans ?_)⟩
    exact List.perm_middle.symm

theorem ofNames_spec (h : ofNames names = .ok r) :
    r.Sorted ∧ r.docs.Perm (names.map .of) ∧ r.names.Perm names := by
  obtain ⟨hsorted, hdocs⟩ := addAll_spec sorted_empty h
  refine ⟨hsorted, hdocs, ?_⟩
  have hnames := hdocs.map (·.name)
  rwa [List.map_append, List.map_map, show (·.name) ∘ Doc.of = id from funext Doc.name_of,
    List.map_id] at hnames

/-- Names that are new and without repetition can all be added. -/
theorem exists_addAll (hnew : ∀ n ∈ names, n ∉ r.names) (hnodup : names.Nodup) :
    ∃ t, r.addAll names = .ok t := by
  induction names generalizing r with
  | nil => exact ⟨r, rfl⟩
  | cons name names ih =>
    obtain ⟨hname, hnodup⟩ := List.nodup_cons.1 hnodup
    obtain ⟨u, hu⟩ : ∃ u, r.add name = .ok u :=
      ⟨_, add_eq_ok_iff.2 ⟨hnew name List.mem_cons_self, rfl⟩⟩
    have hfresh : ∀ n ∈ names, n ∉ u.names := by
      intro n hn hmem
      rcases (mem_names_add hu).1 hmem with rfl | hr
      · exact hname hn
      · exact hnew n (List.mem_cons_of_mem _ hn) hr
    obtain ⟨t, ht⟩ := ih hfresh hnodup
    exact ⟨t, bind_eq_ok_iff.2 ⟨u, hu, ht⟩⟩

/-- Names are refused for the first of them that is there already, in the registry or before it. -/
theorem addAll_eq_error_iff {n : String} : r.addAll names = .error (.duplicate n) ↔
    ∃ before after, names = before ++ n :: after ∧ before.Nodup ∧ (∀ m ∈ before, m ∉ r.names) ∧
      (n ∈ r.names ∨ n ∈ before) := by
  induction names generalizing r with
  | nil => simp [addAll]
  | cons name names ih =>
    rw [addAll, bind_eq_error_iff, add_eq_error_iff]
    constructor
    · rintro (⟨hold, hname⟩ | ⟨u, hu, hadd⟩)
      · obtain rfl := Error.duplicate.inj hname
        exact ⟨[], names, rfl, List.nodup_nil, nofun, .inl hold⟩
      · obtain ⟨before, after, rfl, hnodup, hnew, hn⟩ := ih.1 hadd
        simp only [mem_names_add hu, not_or] at hnew hn
        refine ⟨name :: before, after, rfl, List.nodup_cons.2 ⟨?_, hnodup⟩, ?_, ?_⟩
        · exact fun hmem => (hnew name hmem).1 rfl
        · exact List.forall_mem_cons.2 ⟨(add_eq_ok_iff.1 hu).1, fun m hm => (hnew m hm).2⟩
        · rw [List.mem_cons, ← or_assoc, or_comm (a := n ∈ r.names)]
          exact hn
    · rintro ⟨before, after, hnames, hnodup, hnew, hn⟩
      cases before with
      | nil =>
        obtain ⟨rfl, -⟩ := List.cons.inj hnames
        exact .inl ⟨hn.resolve_right List.not_mem_nil, rfl⟩
      | cons m before =>
        obtain ⟨rfl, rfl⟩ := List.cons.inj hnames
        obtain ⟨hm, hnodup⟩ := List.nodup_cons.1 hnodup
        rw [List.forall_mem_cons] at hnew
        obtain ⟨u, hu⟩ : ∃ u, r.add name = .ok u := ⟨_, add_eq_ok_iff.2 ⟨hnew.1, rfl⟩⟩
        refine .inr ⟨u, hu, ih.2 ⟨before, after, rfl, hnodup, fun k hk => ?_, ?_⟩⟩
        · rw [mem_names_add hu, not_or]
          exact ⟨ne_of_mem_of_not_mem hk hm, hnew.2 k hk⟩
        · rw [mem_names_add hu, or_comm (a := n = name), or_assoc, ← List.mem_cons]
          exact hn

end Registry

theorem mem_all (c : Command) : c ∈ all := List.mem_of_find?_eq_some (ofName?_name c)

/-- The console has a registry: no two commands have the same name. -/
theorem ofNames_registry : Registry.ofNames (all.map name) = .ok registry := by
  have hnodup : (all.map name).Nodup := by decide
  have hempty : ∀ n ∈ all.map name, n ∉ Registry.empty.names := fun _ _ => List.not_mem_nil
  obtain ⟨t, ht⟩ : ∃ t, Registry.ofNames (all.map name) = .ok t :=
    Registry.exists_addAll hempty hnodup
  rw [registry, ht]
  rfl

theorem sorted_registry : registry.Sorted := (Registry.ofNames_spec ofNames_registry).1

theorem mem_names_registry {n : String} : n ∈ registry.names ↔ ∃ c : Command, c.name = n := by
  rw [(Registry.ofNames_spec ofNames_registry).2.2.mem_iff, List.mem_map]
  exact ⟨fun ⟨c, _, hc⟩ => ⟨c, hc⟩, fun ⟨c, hc⟩ => ⟨c, mem_all c, hc⟩⟩

end HubConsole.Command
