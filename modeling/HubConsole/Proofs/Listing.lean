import HubConsole.Proofs.Store

/-! # Lists of settings

The settings of a scope whose names match a pattern, in the order of their names (`mem_list_iff`,
`sorted_list`). A pattern without wildcards matches only itself (`Glob.admits_iff_of_isPlain`), and
the name of a setting is such a pattern. -/

namespace HubConsole
open Setting Text

/-! ## Names as patterns -/

namespace Glob
variable {cs ds : List Char} {pattern name : String}

/-- Whether the text holds no wildcard. -/
def isPlain (cs : List Char) : Bool := cs.all fun c => c != '*' && c != '?' && c != '['

theorem piecesFrom_of_isPlain (h : isPlain cs = true) (atStart : Bool) :
    piecesFrom atStart cs = some (cs.map .literal) := by
  induction cs generalizing atStart with
  | nil => rw [piecesFrom]; rfl
  | cons c cs ih =>
    simp only [isPlain, List.all_cons, Bool.and_eq_true, bne_iff_ne] at h
    obtain ⟨⟨⟨hrun, hany⟩, hclass⟩, hcs⟩ := h
    rw [piecesFrom]
    · rw [ih hcs]
      rfl
    all_goals simp_all

theorem fits_literal_iff : fits (cs.map .literal) ds = true ↔ ds = cs := by
  induction cs generalizing ds with
  | nil => simp [fits]
  | cons c cs ih =>
    cases ds with
    | nil => simp [fits]
    | cons d ds => simp [fits, ih]

/-- Whether a name matches a pattern. Nothing matches one that is malformed. -/
def admits (pattern name : String) : Bool := (parse? pattern).any (matchesName · name)

theorem admits_iff_of_isPlain (h : isPlain pattern.toList = true) :
    admits pattern name = true ↔ name = pattern := by
  rw [admits, parse?, piecesFrom_of_isPlain h]
  exact fits_literal_iff.trans String.toList_inj

end Glob

namespace Store
variable {s : Store} {d : Definition} {r : Resolved} {scope : Scope} {pattern? : Option String}
  {pattern lead w : String}

/-- The name of a setting is a word without wildcards. -/
theorem visible_name_plain (hd : d ∈ visible) : d.name ≠ "" ∧
    (∀ c ∈ d.name.toList, isBlank c = false) ∧ Glob.isPlain d.name.toList = true := by
  have hall : (visible.all fun d => d.name != "" && d.name.toList.all (fun c => !isBlank c) &&
      Glob.isPlain d.name.toList) = true := by decide +kernel
  simpa [and_assoc] using List.all_eq_true.1 hall d hd

/-- The settings stand in the order of their names. -/
theorem sorted_visible : visible.Pairwise fun d e => d.name < e.name := by decide +kernel

theorem list_eq (s : Store) (scope : Scope) (pattern? : Option String) : s.list scope pattern? =
    (visible.filter fun d => d.tiers.allows scope && pattern?.all (Glob.admits · d.name)).map
      fun d => (d, s.effective d scope) := by
  unfold list Glob.admits
  cases pattern? with
  | none => rfl
  | some pattern =>
    cases hparse : Glob.parse? pattern with
    | none => simp [hparse]
    | some pieces => simp [hparse]

theorem mem_list_iff : (d, r) ∈ s.list scope pattern? ↔ d ∈ visible ∧
    d.tiers.allows scope = true ∧ (∀ pattern ∈ pattern?, Glob.admits pattern d.name = true) ∧
      s.effective d scope = r := by
  rw [list_eq]
  simp [and_assoc, Option.all_eq_true]

theorem sorted_list (s : Store) (scope : Scope) (pattern? : Option String) :
    ((s.list scope pattern?).map (·.1.name)).Pairwise (· < ·) := by
  rw [list_eq, List.map_map]
  exact List.pairwise_map.2 (sorted_visible.filter _)

theorem matchesElsewhere_iff : matchesElsewhere scope pattern = true ↔
    ∃ d ∈ visible, d.tiers.allows scope = false ∧ Glob.admits pattern d.name = true := by
  unfold matchesElsewhere Glob.admits
  cases Glob.parse? pattern with
  | none => simp
  | some pieces => simp

theorem mem_names_iff : w ∈ names scope lead ↔
    ∃ d ∈ visible, d.tiers.allows scope = true ∧ startsWith d.name lead = true ∧ d.name = w := by
  simp [names, and_assoc]

end Store
end HubConsole
