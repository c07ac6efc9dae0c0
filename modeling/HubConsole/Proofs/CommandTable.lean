import HubConsole.Command.Help
import HubConsole.Proofs.Registry
import Mathlib.Data.List.Induction
import Mathlib.Data.List.Sort

/-! # The table of commands

What a registry tells of the commands that it is made of (`tabulates_commands`). Names are completed
from it, a name that is mistyped is compared with all of its names (`Closest`), and the help shows
its commands by category. For that they are gathered in a table whose categories may come in any
order, since they are put in their own before they are shown (`overview_of_perm`). -/

namespace HubConsole.Command
open Text

namespace Registry
variable {r : Registry} {names : List String} {typed name : String}
  {score? : String → String → Option Int}

/-- A name repeats one before it, and no name before it does so. -/
def FirstRepeat (names : List String) (name : String) : Prop :=
  ∃ before after, names = before ++ name :: after ∧ before.Nodup ∧ name ∈ before

theorem ofNames_eq_error_iff :
    ofNames names = .error (.duplicate name) ↔ FirstRepeat names name := by
  have hempty : Registry.empty.names = [] := rfl
  simp [ofNames, addAll_eq_error_iff, FirstRepeat, hempty]

-- the first name that repeats need not be the first that is repeated
example : ofNames ["say", "set", "set", "say"] = .error (.duplicate "set") := by decide

theorem exists_ofNames_iff : (∃ r, ofNames names = .ok r) ↔ names.Nodup := by
  constructor
  · rintro ⟨r, hr⟩
    obtain ⟨hsorted, -, hnames⟩ := ofNames_spec hr
    exact hnames.nodup_iff.1 (hsorted.pairwise_names.imp String.ne_of_lt)
  · exact exists_addAll fun _ _ => List.not_mem_nil

theorem get?_eq (h : ofNames names = .ok r) (name : String) :
    r.get? name = if name ∈ names then some (.of name) else none := by
  obtain ⟨-, hdocs, hnames⟩ := ofNames_spec h
  split
  · next hmem =>
    cases hget : r.get? name with
    | none => exact absurd (hnames.mem_iff.2 hmem) (get?_eq_none_iff.1 hget)
    | some d =>
      obtain ⟨n, -, rfl⟩ := List.mem_map.1 (hdocs.mem_iff.1 (List.mem_of_find?_eq_some hget))
      have hname : n = name := by simpa [Doc.name_of] using List.find?_some hget
      rw [hname]
  · next hmem => exact get?_eq_none_iff.2 fun hr => hmem (hnames.mem_iff.1 hr)

/-! ## The closest name -/

/-- No name scores higher, and those before it in the alphabet score less. -/
structure Closest (score? : String → Option Int) (names : List String) (name : String) : Prop where
  mem : name ∈ names
  best : ∃ s, score? name = some s ∧
    ∀ other ∈ names, ∀ t, score? other = some t → t ≤ s ∧ (other < name → t < s)

theorem Closest.unique {score? : String → Option Int} {a b : String} (ha : Closest score? names a)
    (hb : Closest score? names b) : a = b := by
  obtain ⟨s, hs, hbest⟩ := ha.best
  obtain ⟨t, ht, hbest'⟩ := hb.best
  obtain ⟨hle, hlt⟩ := hbest b hb.mem t ht
  obtain ⟨hle', hlt'⟩ := hbest' a ha.mem s hs
  refine String.le_antisymm (String.not_lt.1 fun h => ?_) (String.not_lt.1 fun h => ?_)
  · exact absurd (hlt h) (by omega)
  · exact absurd (hlt' h) (by omega)

theorem Closest.congr {score? : String → Option Int} {others : List String}
    (hname : Closest score? names name) (h : ∀ n, n ∈ names ↔ n ∈ others) :
    Closest score? others name :=
  ⟨(h name).1 hname.mem, by simpa only [h] using hname.best⟩

theorem best?_eq_none_iff {scored : List (String × Int)} : best? scored = none ↔ scored = [] := by
  rw [best?, ranked, Option.map_eq_none_iff, List.head?_eq_none_iff, ← List.length_eq_zero_iff,
    List.length_mergeSort, List.length_eq_zero_iff]

/-- A name that is put before others is ranked first unless one of them scores higher, and then what
was first remains so. -/
theorem head?_ranked_cons {a p : String × Int} {scored : List (String × Int)}
    (hp : (ranked (a :: scored)).head? = some p) :
    p = a ∧ (∀ q ∈ scored, q.2 ≤ a.2) ∨ (ranked scored).head? = some p ∧ a.2 < p.2 := by
  have htrans : ∀ a b c : String × Int, decide (b.2 ≤ a.2) = true → decide (c.2 ≤ b.2) = true →
      decide (c.2 ≤ a.2) = true := by
    simp only [decide_eq_true_eq]
    omega
  have htotal : ∀ a b : String × Int, (decide (b.2 ≤ a.2) || decide (a.2 ≤ b.2)) = true := by
    simp only [Bool.or_eq_true, decide_eq_true_eq]
    omega
  obtain ⟨above, below, hsort, hrest, habove⟩ := List.mergeSort_cons htrans htotal a scored
  rw [ranked, hsort] at hp
  rw [ranked, hrest]
  cases above with
  | nil =>
    have hsorted := List.pairwise_mergeSort htrans htotal (a :: scored)
    rw [hsort] at hsorted
    refine .inl ⟨(Option.some.inj hp).symm, fun q hq => ?_⟩
    rw [← List.mem_mergeSort, hrest] at hq
    exact of_decide_eq_true ((List.pairwise_cons.1 hsorted).1 q hq)
  | cons b above =>
    obtain rfl := Option.some.inj hp
    exact .inr ⟨rfl, by simpa using habove b List.mem_cons_self⟩

/-- What is ranked first has the highest score, and all before it in the alphabet score less. -/
theorem of_head?_ranked {scored : List (String × Int)} {p : String × Int}
    (h : scored.Pairwise fun a b => a.1 < b.1) (hp : (ranked scored).head? = some p) :
    p ∈ scored ∧ ∀ q ∈ scored, q.2 ≤ p.2 ∧ (q.1 < p.1 → q.2 < p.2) := by
  induction scored with
  | nil => simp [ranked] at hp
  | cons a scored ih =>
    obtain ⟨hnames, h⟩ := List.pairwise_cons.1 h
    rcases head?_ranked_cons hp with ⟨rfl, hbest⟩ | ⟨hp, hlt⟩
    · refine ⟨List.mem_cons_self, List.forall_mem_cons.2 ⟨⟨Int.le_refl _, fun hlt => ?_⟩,
        fun q hq => ⟨hbest q hq, fun hlt => ?_⟩⟩⟩
      · exact absurd hlt (String.lt_irrefl _)
      · exact absurd hlt (String.lt_asymm (hnames q hq))
    · obtain ⟨hmem, hbest⟩ := ih h hp
      exact ⟨List.mem_cons_of_mem _ hmem,
        List.forall_mem_cons.2 ⟨⟨Int.le_of_lt hlt, fun _ => hlt⟩, hbest⟩⟩

theorem mem_scored {score? : String → Option Int} {s : Int} :
    (name, s) ∈ (names.filterMap fun n => (score? n).map (n, ·)) ↔
      name ∈ names ∧ score? name = some s := by
  simp only [List.mem_filterMap, Option.map_eq_some_iff, Prod.mk.injEq]
  constructor
  · rintro ⟨n, hn, t, ht, rfl, rfl⟩
    exact ⟨hn, ht⟩
  · rintro ⟨hn, hs⟩
    exact ⟨name, hn, s, hs, rfl, rfl⟩

theorem pairwise_scored (h : names.Pairwise (· < ·)) (score? : String → Option Int) :
    (names.filterMap fun n => (score? n).map (n, ·)).Pairwise fun a b => a.1 < b.1 := by
  refine h.filterMap _ fun m n hlt a ha b hb => ?_
  obtain ⟨s, -, rfl⟩ := Option.map_eq_some_iff.1 ha
  obtain ⟨t, -, rfl⟩ := Option.map_eq_some_iff.1 hb
  exact hlt

theorem closestBy?_eq_none_iff : r.closestBy? score? typed = none ↔
    typed = "" ∨ ∀ n ∈ r.names, score? n typed = none := by
  unfold closestBy?
  split
  · next htyped => simpa using .inl (beq_iff_eq.1 htyped)
  · next htyped =>
    rw [beq_iff_eq] at htyped
    simp [htyped, best?_eq_none_iff, List.filterMap_eq_nil_iff]

theorem Sorted.closest (h : r.Sorted) (hname : r.closestBy? score? typed = some name) :
    typed ≠ "" ∧ Closest (score? · typed) r.names name := by
  unfold closestBy? at hname
  split at hname
  · cases hname
  · next htyped =>
    obtain ⟨p, hp, rfl⟩ := Option.map_eq_some_iff.1 hname
    obtain ⟨hmem, hbest⟩ := of_head?_ranked (pairwise_scored h.pairwise_names (score? · typed)) hp
    obtain ⟨hmem, hs⟩ := mem_scored.1 hmem
    exact ⟨by simpa using htyped, hmem, p.2, hs, fun other hother t ht =>
      hbest (other, t) (mem_scored.2 ⟨hother, ht⟩)⟩

theorem closestBy?_eq_some_iff (h : r.Sorted) : r.closestBy? score? typed = some name ↔
    typed ≠ "" ∧ Closest (score? · typed) r.names name := by
  refine ⟨h.closest, fun ⟨htyped, hname⟩ => ?_⟩
  cases hclosest : r.closestBy? score? typed with
  | none =>
    obtain ⟨s, hs, -⟩ := hname.best
    have hnone := (closestBy?_eq_none_iff.1 hclosest).resolve_left htyped
    rw [hnone name hname.mem] at hs
    cases hs
  | some other => rw [(h.closest hclosest).2.unique hname]

end Registry

/-! ## Commands by category -/

namespace Category

theorem mem_all (c : Category) : c ∈ all := by cases c <;> decide

theorem order_inj {a b : Category} (h : a.order = b.order) : a = b := by
  have hnodup : (all.map order).Nodup := by decide
  exact List.inj_on_of_nodup_map hnodup a.mem_all b.mem_all h

end Category

namespace Help
variable {table table' : Table} {docs : List Doc} {d : Doc} {g : Category × List Doc}

/-- A table has each command of a list once, with the others of its category, and each category that
one of them has once. -/
structure Groups (docs : List Doc) (table : Table) : Prop where
  nodup : (table.map (·.1)).Nodup
  ne_nil : ∀ g ∈ table, g.2 ≠ []
  category : ∀ g ∈ table, ∀ d ∈ g.2, d.category = g.1
  /-- The commands of one category are in the order of the list. -/
  sublist : ∀ g ∈ table, g.2.Sublist docs
  perm : (table.flatMap (·.2)).Perm docs

theorem map_fst_enter (table : Table) (d : Doc) : (enter table d).map (·.1) =
    if d.category ∈ table.map (·.1) then table.map (·.1) else table.map (·.1) ++ [d.category] := by
  induction table with
  | nil => simp [enter]
  | cons g table ih =>
    by_cases h : g.1 = d.category
    · simp [enter, h]
    · simp only [enter, h, if_false, List.map_cons, ih, List.mem_cons, Ne.symm h, false_or]
      split <;> rfl

theorem of_mem_enter (hg : g ∈ enter table d) : g ∈ table ∨
    g.1 = d.category ∧ ∃ ds, g.2 = ds ++ [d] ∧ (ds = [] ∨ (g.1, ds) ∈ table) := by
  induction table with
  | nil =>
    obtain rfl := List.mem_singleton.1 hg
    exact .inr ⟨rfl, [], rfl, .inl rfl⟩
  | cons g' table ih =>
    unfold enter at hg
    split at hg
    · next h =>
      rcases List.mem_cons.1 hg with rfl | hg
      · exact .inr ⟨h, g'.2, rfl, .inr List.mem_cons_self⟩
      · exact .inl (List.mem_cons_of_mem _ hg)
    · rcases List.mem_cons.1 hg with rfl | hg
      · exact .inl List.mem_cons_self
      · rcases ih hg with hg | ⟨hc, ds, hds, hold⟩
        · exact .inl (List.mem_cons_of_mem _ hg)
        · exact .inr ⟨hc, ds, hds, hold.imp_right (List.mem_cons_of_mem _)⟩

theorem perm_enter (table : Table) (d : Doc) :
    ((enter table d).flatMap (·.2)).Perm (table.flatMap (·.2) ++ [d]) := by
  induction table with
  | nil => exact List.Perm.refl _
  | cons g table ih =>
    unfold enter
    split
    · simp only [List.flatMap_cons, List.append_assoc]
      exact List.perm_append_comm.append_left _
    · simp only [List.flatMap_cons, List.append_assoc]
      exact ih.append_left _

theorem Groups.enter (h : Groups docs table) (d : Doc) : Groups (docs ++ [d]) (enter table d) where
  nodup := by
    rw [map_fst_enter]
    split
    · exact h.nodup
    · next hnew =>
      rw [← List.concat_eq_append]
      exact h.nodup.concat hnew
  ne_nil g hg := by
    rcases of_mem_enter hg with hg | ⟨-, ds, hds, -⟩
    · exact h.ne_nil g hg
    · simp [hds]
  category g hg e he := by
    rcases of_mem_enter hg with hg | ⟨hc, ds, hds, hold⟩
    · exact h.category g hg e he
    · rw [hds, List.mem_append, List.mem_singleton] at he
      rcases he with he | rfl
      · exact h.category _ (hold.resolve_left (List.ne_nil_of_mem he)) e he
      · exact hc.symm
  sublist g hg := by
    rcases of_mem_enter hg with hg | ⟨-, ds, hds, hold⟩
    · exact (h.sublist g hg).trans (List.sublist_append_left _ _)
    · rw [hds]
      refine List.Sublist.append ?_ (List.Sublist.refl _)
      rcases hold with rfl | hold
      · exact List.nil_sublist _
      · exact h.sublist _ hold
  perm := (perm_enter table d).trans (h.perm.append_right _)

theorem groups_byCategory (docs : List Doc) : Groups docs (byCategory docs) := by
  induction docs using List.reverseRecOn with
  | nil => exact ⟨List.nodup_nil, nofun, nofun, nofun, List.Perm.refl _⟩
  | append_singleton docs d ih =>
    rw [byCategory, List.foldl_append]
    exact ih.enter d

theorem Groups.of_perm (h : Groups docs table) (hperm : table'.Perm table) :
    Groups docs table' where
  nodup := (hperm.map _).nodup_iff.2 h.nodup
  ne_nil g hg := h.ne_nil g (hperm.mem_iff.1 hg)
  category g hg := h.category g (hperm.mem_iff.1 hg)
  sublist g hg := h.sublist g (hperm.mem_iff.1 hg)
  perm := (hperm.flatMap_right _).trans h.perm

theorem perm_arranged (table : Table) : (arranged table).Perm table := List.mergeSort_perm _ _

theorem pairwise_arranged (table : Table) :
    (arranged table).Pairwise fun g h => g.1.order ≤ h.1.order := by
  have htrans : ∀ a b c : Category × List Doc, decide (a.1.order ≤ b.1.order) = true →
      decide (b.1.order ≤ c.1.order) = true → decide (a.1.order ≤ c.1.order) = true := by
    simp only [decide_eq_true_eq]
    omega
  have htotal : ∀ a b : Category × List Doc,
      (decide (a.1.order ≤ b.1.order) || decide (b.1.order ≤ a.1.order)) = true := by
    simp only [Bool.or_eq_true, decide_eq_true_eq]
    omega
  exact (List.pairwise_mergeSort htrans htotal table).imp of_decide_eq_true

/-- The order in which the categories of a table come up does not matter. -/
theorem overview_of_perm (h : Groups docs table) (hperm : table'.Perm table) :
    overview table' = overview table := by
  have hanti : ∀ g k, g ∈ arranged table' → k ∈ arranged table →
      g.1.order ≤ k.1.order → k.1.order ≤ g.1.order → g = k := by
    intro g k hg hk hgk hkg
    have hg : g ∈ table := hperm.mem_iff.1 ((perm_arranged table').mem_iff.1 hg)
    have hk : k ∈ table := (perm_arranged table).mem_iff.1 hk
    exact List.inj_on_of_nodup_map h.nodup hg hk (Category.order_inj (Nat.le_antisymm hgk hkg))
  have harranged : arranged table' = arranged table :=
    List.Perm.eq_of_pairwise hanti (pairwise_arranged table') (pairwise_arranged table)
      ((perm_arranged table').trans (hperm.trans (perm_arranged table).symm))
  rw [overview, overview, harranged]

/-- Groups of commands as the help shows them: the categories in their order, and the commands of
each in the order of their names. -/
structure Shows (docs : List Doc) (groups : Table) : Prop extends Groups docs groups where
  categories : (groups.map (·.1)).Sublist Category.all
  headings : (groups.map fun g => (g.1, g.1.heading)).Sublist
    [(.chat, "CHAT"), (.hubs, "HUBS"), (.settings, "SETTINGS"),
      (.transfers, "SEARCH & TRANSFERS"), (.other, "OTHER")]
  names : ∀ g ∈ groups, g.2.Pairwise fun d e => d.name < e.name

theorem sublist_all {groups : Table} (hnodup : (groups.map (·.1)).Nodup)
    (hsorted : groups.Pairwise fun g h => g.1.order ≤ h.1.order) :
    (groups.map (·.1)).Sublist Category.all := by
  have hanti : Std.Antisymm fun a b : Category => a.order ≤ b.order :=
    ⟨fun _ _ hab hba => Category.order_inj (Nat.le_antisymm hab hba)⟩
  have hgroups : (groups.map (·.1)).Pairwise fun a b => a.order ≤ b.order :=
    List.pairwise_map.2 hsorted
  have hall : Category.all.Pairwise fun a b => a.order ≤ b.order := by decide
  have hsubset : groups.map (·.1) ⊆ Category.all := fun c _ => c.mem_all
  exact List.sublist_of_subperm_of_pairwise (List.subperm_of_subset hnodup hsubset) hgroups hall

theorem Groups.shows (h : Groups docs table)
    (hsorted : docs.Pairwise fun d e => d.name < e.name) : Shows docs (arranged table) := by
  have harranged : Groups docs (arranged table) := h.of_perm (perm_arranged table)
  have hcategories := sublist_all harranged.nodup (pairwise_arranged table)
  refine ⟨harranged, hcategories, ?_, fun g hg => hsorted.sublist (harranged.sublist g hg)⟩
  have hheadings := hcategories.map fun c => (c, c.heading)
  rw [List.map_map] at hheadings
  exact hheadings

/-- A command is shown by its name, filled with blanks to a width of 12, and its summary. -/
theorem entry_eq (d : Doc) : entry d =
    "    /" ++ String.ofList (d.name.toList.rightpad 12 ' ') ++ " " ++ d.summary := by
  rw [← padRight_eq_rightpad]
  rfl

end Help

namespace Registry
variable {r : Registry} {names : List String}

/-- An entry for a command of some name: the one in the manual, or one that says that there is
none. -/
def Documents (name : String) (d : Doc) : Prop :=
  d ∈ Doc.manual ∧ d.name = name ∨
    (∀ e ∈ Doc.manual, e.name ≠ name) ∧
      d = ⟨name, .other, "", "No documentation available.", none⟩

theorem documents_of (name : String) : Documents name (.of name) := by
  unfold Doc.of
  cases hfind : Doc.manual.find? fun d => d.name == name with
  | some d =>
    exact .inl ⟨List.mem_of_find?_eq_some hfind, by simpa using List.find?_some hfind⟩
  | none => exact .inr ⟨by simpa [List.find?_eq_none] using hfind, rfl⟩

/-- What a registry that is made of some names tells of their commands. -/
structure Tabulates (r : Registry) (names : List String) : Prop where
  /-- Each command stands in it once, with its entry in the manual. -/
  perm : r.docs.Perm (names.map .of)
  documents : ∀ d ∈ r.docs, Documents d.name d
  sorted : r.docs.Pairwise fun d e => d.name < e.name
  get? : ∀ name, r.get? name = if name ∈ names then some (.of name) else none
  namesWith : ∀ lead, (r.namesWith lead).Pairwise (· < ·) ∧
    ∀ name, name ∈ r.namesWith lead ↔ name ∈ names ∧ lead.toList <+: name.toList
  closest : ∀ score? typed name, r.closestBy? score? typed = some name ↔
    typed ≠ "" ∧ Closest (score? · typed) names name
  closest_none : ∀ score? typed, r.closestBy? score? typed = none ↔
    typed = "" ∨ ∀ name ∈ names, score? name typed = none
  page : ∃ groups, Help.Shows r.docs groups ∧
    Help.commands r = ["Available commands:"]
      ++ groups.flatMap (fun g => "" :: ("  " ++ g.1.heading) :: g.2.map fun d =>
        "    /" ++ String.ofList (d.name.toList.rightpad 12 ' ') ++ " " ++ d.summary)
      ++ ["", "Type /help <command> for more information about a command."]
  /-- The page is the same in whatever order the categories come up. -/
  overview : ∀ table, table.Perm (Help.byCategory r.docs) → Help.overview table = Help.commands r

theorem tabulates_of_ofNames (h : ofNames names = .ok r) : r.Tabulates names := by
  obtain ⟨hsorted, hdocs, hnames⟩ := ofNames_spec h
  have hgroups := Help.groups_byCategory r.docs
  have hclosest : ∀ {score? : String → Option Int} {name},
      Closest score? r.names name ↔ Closest score? names name :=
    ⟨fun hname => hname.congr fun _ => hnames.mem_iff,
      fun hname => hname.congr fun _ => hnames.mem_iff.symm⟩
  refine {
    perm := hdocs
    documents := fun d hd => ?documents
    sorted := hsorted
    get? := get?_eq h
    namesWith := fun lead => ⟨hsorted.pairwise_names.filter _, fun name => ?namesWith⟩
    closest := fun score? typed name => ?closest
    closest_none := fun score? typed => ?closest_none
    page := ⟨_, hgroups.shows hsorted, ?page⟩
    overview := fun table => Help.overview_of_perm hgroups }
  case documents =>
    obtain ⟨name, -, rfl⟩ := List.mem_map.1 (hdocs.mem_iff.1 hd)
    rw [Doc.name_of]
    exact documents_of name
  case namesWith =>
    rw [Registry.namesWith, List.mem_filter, hnames.mem_iff, startsWith,
      List.isPrefixOf_iff_prefix]
  case closest => rw [closestBy?_eq_some_iff hsorted, hclosest]
  case closest_none => simp only [closestBy?_eq_none_iff, hnames.mem_iff]
  case page =>
    rw [← funext Help.entry_eq]
    rfl

/-- Names make a registry unless one of them repeats, and are refused for the first that does. The
registry has the commands of these names, each once, in the order of the names. It finds them by
name, lists those that go on from what is typed, and chooses for a name that is mistyped the first
of those that a score puts highest, whatever the score is. The help shows each command once, by its
name and its summary, under the heading of its category. -/
theorem tabulates_commands (names : List String) :
    ((∃ e, ofNames names = .error e) ↔ ¬ names.Nodup) ∧
    (∀ name, ofNames names = .error (.duplicate name) ↔ FirstRepeat names name) ∧
    ∀ r, ofNames names = .ok r → r.Tabulates names := by
  refine ⟨?_, fun name => ofNames_eq_error_iff, fun r => tabulates_of_ofNames⟩
  rw [← exists_ofNames_iff]
  cases ofNames names <;> simp

/-- Names in any order, one of them without an entry in the manual. -/
theorem tabulates_commands_unsorted :
    let names := ["set", "zap", "open", "say", "hset"]
    let r : Registry := ⟨["hset", "open", "say", "set", "zap"].map .of⟩
    ofNames names = .ok r ∧ r.Tabulates names ∧
      Help.commands r = ["Available commands:",
        "", "  CHAT",
        "    /say          Send a chat message.",
        "", "  HUBS",
        "    /open         Open a new hub tab and connect to the hub.",
        "", "  SETTINGS",
        "    /hset         Get or set a hub setting.",
        "    /set          Get or set a global setting.",
        "", "  OTHER",
        "    /zap          No documentation available.",
        "", "Type /help <command> for more information about a command."] := by
  intro names r
  have hr : ofNames names = .ok r := by decide +kernel
  have htabulates := (tabulates_commands names).2.2 r hr
  let table : Help.Table := [(.chat, [.of "say"]), (.hubs, [.of "open"]),
    (.settings, [.of "hset", .of "set"]), (.other, [.of "zap"])]
  have htable : table.Perm (Help.byCategory r.docs) := by decide +kernel
  have harranged : Help.arranged table = table := List.mergeSort_of_pairwise (by decide +kernel)
  refine ⟨hr, htabulates, ?_⟩
  rw [← htabulates.overview table htable, Help.overview, harranged]
  decide +kernel

end Registry
end HubConsole.Command
