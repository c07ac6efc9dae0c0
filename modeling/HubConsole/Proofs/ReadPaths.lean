import HubConsole.Proofs.Completion
import HubConsole.Proofs.Listing
import HubConsole.Proofs.Registry

/-! # Ways to read the settings

A setting can be looked up by its name, listed with all others, offered while its name or its value
is typed, and read by the program itself. Whatever the store holds, these agree (`reads_alike`): all
of them start from the settings that can be seen and that the scope has, and from the same text that
lies over the others (`effectiveRaw?`). -/

namespace HubConsole
open Setting Text Result

namespace Store
variable {s : Store} {d e : Definition} {r : Resolved} {scope : Scope}
  {raw display name lead typed w : String} {origin : Origin}

/-! ## What a setting amounts to -/

theorem effective_eq_set_iff : s.effective d scope = .set raw display origin ↔
    s.effectiveRaw? d scope = some (raw, origin) ∧ s.displayOf d raw = display := by
  unfold effective
  cases s.effectiveRaw? d scope with
  | none => simp
  | some p =>
    obtain ⟨raw', origin'⟩ := p
    simp only [Resolved.set.injEq, Option.some.injEq, Prod.mk.injEq]
    constructor
    · rintro ⟨rfl, hdisplay, rfl⟩
      exact ⟨⟨rfl, rfl⟩, hdisplay⟩
    · rintro ⟨⟨rfl, rfl⟩, hdisplay⟩
      exact ⟨rfl, hdisplay, rfl⟩

theorem effective_eq_unset_iff : s.effective d scope = .unset ↔ s.effectiveRaw? d scope = none := by
  unfold effective
  cases s.effectiveRaw? d scope <;> simp

theorem value?_eq (hd : d ∈ definitions) : s.value? scope d.name =
    (s.effectiveRaw? d scope).bind fun p => (d.kind.parse s.home p.1).toOption := by
  unfold value?
  rw [find?_eq_some_iff.2 ⟨rfl, hd⟩]
  rfl

/-- A hidden setting shares its name with none that can be seen. -/
theorem name_ne_of_hidden (hd : d ∈ definitions) (hidden : d.hidden = true) (he : e ∈ visible) :
    e.name ≠ d.name := by
  intro hname
  obtain ⟨he, hshown⟩ := mem_visible_iff.1 he
  obtain rfl := List.inj_on_of_nodup_map nodup_names he hd hname
  rw [hidden] at hshown
  cases hshown

/-! ## Values that are offered -/

/-- What words are gathered into begins with what was there, and repeats nothing. -/
theorem gather_spec (words : List String) {out : List String} (h : out.Nodup) :
    out <+: words.foldl (fun out w => if out.contains w then out else out ++ [w]) out ∧
      (words.foldl (fun out w => if out.contains w then out else out ++ [w]) out).Nodup := by
  induction words generalizing out with
  | nil => exact ⟨List.prefix_rfl, h⟩
  | cons w words ih =>
    rw [List.foldl_cons]
    split
    · exact ih h
    · next hnew =>
      have hnot : w ∉ out := by simpa using hnew
      have hnodup : (out ++ [w]).Nodup := by
        rw [List.nodup_append]
        refine ⟨h, List.nodup_singleton w, fun a ha b hb => ?_⟩
        rw [List.mem_singleton.1 hb]
        exact ne_of_mem_of_not_mem ha hnot
      obtain ⟨hfirst, hall⟩ := ih hnodup
      exact ⟨(List.prefix_append out [w]).trans hfirst, hall⟩

theorem suggestValue_eq (hd : d ∈ definitions) : s.suggestValue scope d.name typed =
    if d.hidden || !d.tiers.allows scope then [] else
      (d.kind.suggest typed).foldl (fun out w => if out.contains w then out else out ++ [w])
        (match s.effectiveRaw? d scope with
          | some (raw, _) => if startsWith raw typed then [raw] else []
          | none => []) := by
  have hfind : find? d.name = some d := find?_eq_some_iff.2 ⟨rfl, hd⟩
  unfold suggestValue
  split
  · next hnone => cases hfind.symm.trans hnone
  · next e he =>
    obtain rfl := Option.some.inj (hfind.symm.trans he)
    rfl

theorem nodup_suggestValue (s : Store) (scope : Scope) (name typed : String) :
    (s.suggestValue scope name typed).Nodup := by
  unfold suggestValue
  split
  · exact List.nodup_nil
  · split
    · exact List.nodup_nil
    · refine (gather_spec _ ?_).2
      split
      · split
        · exact List.nodup_singleton _
        · exact List.nodup_nil
      · exact List.nodup_nil

/-- The present value comes first if it goes on from what is typed. -/
theorem head?_suggestValue (hd : d ∈ visible) (allowed : d.tiers.allows scope = true)
    (hraw : s.effectiveRaw? d scope = some (raw, origin)) (htyped : startsWith raw typed = true) :
    (s.suggestValue scope d.name typed).head? = some raw := by
  obtain ⟨hd, hshown⟩ := mem_visible_iff.1 hd
  rw [suggestValue_eq hd, hshown, allowed, hraw]
  obtain ⟨rest, hrest⟩ := (gather_spec (d.kind.suggest typed) (List.nodup_singleton raw)).1
  simp only [Bool.not_true, Bool.or_self, Bool.false_eq_true, if_false, htyped, if_true]
  rw [← hrest]
  rfl

/-! ## Names that are offered -/

theorem names_eq (scope : Scope) (lead : String) : names scope lead =
    ((visible.filter fun d => d.tiers.allows scope).map (·.name)).filter
      fun name => startsWith name lead := by
  rw [List.filter_map, List.filter_filter, names]
  simp only [Function.comp_def, Bool.and_comm]

end Store

namespace Scope

/-- The command that sets the settings of a scope, which is a topic of the help. -/
def setCommand : Scope → String
  | global => "set"
  | hub _ => "hset"

theorem setCommand_cases (scope : Scope) :
    scope.setCommand = "set" ∨ scope.setCommand = "hset" := by
  cases scope with
  | global => exact .inl rfl
  | hub => exact .inr rfl

end Scope

namespace Command
variable {scope : Scope} {args w : String}

theorem settingsOf_eq (scope : Scope) : ∃ tiers, helpScope? scope.setCommand = some tiers ∧
    settingsOf tiers = visible.filter fun d => d.tiers.allows scope := by
  have htiers : ∀ {tiers : Tiers} {scope : Scope}, (∀ t : Tiers, (decide (t = tiers) ||
      decide (t = .both)) = t.allows scope) →
      settingsOf tiers = visible.filter fun d => d.tiers.allows scope := by
    intro tiers scope h
    simp only [settingsOf, h]
  cases scope with
  | global => exact ⟨.global, rfl, htiers fun t => by cases t <;> rfl⟩
  | hub id => exact ⟨.hub, rfl, htiers fun t => by cases t <;> rfl⟩

/-- What the help offers after the name of a command that sets settings. -/
theorem completeHelp_setting (scope : Scope) (lead : String) :
    completeHelp (scope.setCommand ++ " " ++ lead) =
      prepend (scope.setCommand ++ " ") (Store.names scope lead) := by
  obtain ⟨tiers, htiers, hsettings⟩ := settingsOf_eq scope
  have htopic : ' ' ∉ scope.setCommand.toList ∧ (scope.setCommand == "keys") = false := by
    rcases scope.setCommand_cases with h | h <;> rw [h] <;> decide
  have hcut : cutFirst? ' ' (scope.setCommand ++ " " ++ lead).toList =
      some (scope.setCommand.toList, lead.toList) := by
    rw [String.toList_append, String.toList_append, List.append_assoc]
    exact cutFirst?_append htopic.1
  unfold completeHelp
  rw [hcut]
  simp only [String.ofList_toList, htopic.2, htiers, hsettings, Store.names_eq]
  rfl

/-- The words that the help offers. -/
inductive HelpWord : String → Prop
  | command (c : Command) : HelpWord c.name
  | keys : HelpWord "keys"
  | keySection (k : KeySection) : HelpWord k.name
  | setting {d : Definition} (visible : d ∈ visible) : HelpWord d.name

/-- What the help offers is a word, or a topic and a word of it. -/
theorem mem_completeHelp (h : w ∈ completeHelp args) : HelpWord w ∨
    ∃ topic word, w = topic ++ " " ++ word ∧ HelpWord topic ∧ HelpWord word := by
  unfold completeHelp at h
  split at h
  · have hname : w ∈ registry.namesWith args → HelpWord w := fun h => by
      obtain ⟨c, rfl⟩ := mem_names_registry.1 (List.mem_of_mem_filter h)
      exact .command c
    dsimp only at h
    split at h
    · rw [List.mem_mergeSort, List.mem_append, List.mem_singleton] at h
      rcases h with h | rfl
      · exact .inl (hname h)
      · exact .inl .keys
    · exact .inl (hname h)
  · next topic typed hcut =>
    obtain ⟨word, hword, rfl⟩ := List.mem_map.1 h
    refine .inr ⟨String.ofList topic, word, rfl, ?_⟩
    have hword := List.mem_of_mem_filter hword
    split at hword
    · next hkeys =>
      obtain ⟨k, -, rfl⟩ := List.mem_map.1 hword
      rw [beq_iff_eq] at hkeys
      exact ⟨hkeys ▸ .keys, .keySection k⟩
    · split at hword
      · next tiers htiers =>
        obtain ⟨d, hd, rfl⟩ := List.mem_map.1 hword
        refine ⟨?_, .setting (List.mem_of_mem_filter hd)⟩
        unfold helpScope? at htiers
        split at htiers
        · next hset => exact hset ▸ .command (.set .global)
        · next hset => exact hset ▸ .command (.set .hub)
        · cases htiers
      · cases hword

theorem HelpWord.blank_not_mem (h : HelpWord w) : ' ' ∉ w.toList := by
  cases h with
  | command c => exact blank_not_mem_name c
  | keys => decide
  | keySection k => cases k <;> decide
  | setting hd => exact fun hmem => absurd ((Store.visible_name_plain hd).2.1 ' ' hmem) (by decide)

theorem HelpWord.ne_of_hidden {d : Definition} (h : HelpWord w) (hd : d ∈ definitions)
    (hidden : d.hidden = true) : w ≠ d.name := by
  cases h with
  | command c =>
    have hall : ∀ d ∈ definitions, d.hidden = true → ∀ c ∈ all, c.name ≠ d.name := by decide
    exact hall d hd hidden c (mem_all c)
  | keys =>
    have hall : ∀ d ∈ definitions, d.hidden = true → "keys" ≠ d.name := by decide
    exact hall d hd hidden
  | keySection k =>
    have hall : ∀ d ∈ definitions, d.hidden = true → ∀ k ∈ KeySection.all, k.name ≠ d.name := by
      decide
    exact hall d hd hidden k (by cases k <;> decide)
  | setting he => exact Store.name_ne_of_hidden hd hidden he

/-- No word of what the help offers is the name of a hidden setting. -/
theorem not_mem_completeHelp_of_hidden {d : Definition} (hd : d ∈ definitions)
    (hidden : d.hidden = true) (h : w ∈ completeHelp args) :
    d.name.toList ∉ pieces (· == ' ') w.toList := by
  have hne : ∀ {word}, HelpWord word → d.name.toList ≠ word.toList := fun hword heq =>
    hword.ne_of_hidden hd hidden (String.toList_inj.1 heq).symm
  rcases mem_completeHelp h with hword | ⟨topic, word, rfl, htopic, hword⟩
  · rw [pieces_of_not_mem hword.blank_not_mem, List.mem_singleton]
    exact hne hword
  · have hw : (topic ++ " " ++ word).toList = topic.toList ++ ' ' :: word.toList := by simp
    rw [hw, pieces_append htopic.blank_not_mem, pieces_of_not_mem hword.blank_not_mem]
    simpa using ⟨hne htopic, hne hword⟩

end Command

namespace Store

/-- The settings of a scope are the same in whatever way they are read. -/
structure ReadsAlike (s : Store) (scope : Scope) : Prop where
  sorted : ((s.list scope none).map (·.1.name)).Pairwise (· < ·)
  resolve_iff : ∀ name r, s.resolve scope name = .ok r ↔
    ∃ d, (d, r) ∈ s.list scope none ∧ d.name = name
  names : ∀ lead, names scope lead =
    ((s.list scope none).map (·.1.name)).filter fun name => startsWith name lead
  help : ∀ lead, Command.completeHelp (scope.setCommand ++ " " ++ lead) =
    (Store.names scope lead).map fun name => scope.setCommand ++ " " ++ name
  nodup : ∀ name typed, (s.suggestValue scope name typed).Nodup
  /-- What has a value offers it first, and is read as it. -/
  present : ∀ d raw display origin, (d, .set raw display origin) ∈ s.list scope none →
    (∀ typed, startsWith raw typed = true →
      (s.suggestValue scope d.name typed).head? = some raw) ∧
    s.value? scope d.name = (d.kind.parse s.home raw).toOption
  absent : ∀ d, (d, .unset) ∈ s.list scope none → s.value? scope d.name = none
  refused : ∀ d ∈ definitions, d.tiers.allows scope = false ∨ d.hidden = true →
    (∀ typed, s.suggestValue scope d.name typed = []) ∧ ∀ r, s.resolve scope d.name ≠ .ok r
  hidden : ∀ d ∈ definitions, d.hidden = true →
    d.name ∉ (s.list scope none).map (·.1.name) ∧ (∀ lead, d.name ∉ Store.names scope lead) ∧
      ∀ args, ∀ w ∈ Command.completeHelp args, d.name.toList ∉ pieces (· == ' ') w.toList

/-- Whatever is stored, be it a value that cannot be read or one for a name that is hidden or
unknown, all ways to read the settings of a scope agree. -/
theorem reads_alike (s : Store) (scope : Scope) : s.ReadsAlike scope where
  sorted := sorted_list s scope none
  resolve_iff name r := by
    rw [resolve_eq_ok_iff]
    constructor
    · rintro ⟨d, hd, hname, allowed, hr⟩
      exact ⟨d, mem_list_iff.2 ⟨hd, allowed, nofun, hr⟩, hname⟩
    · rintro ⟨d, hd, hname⟩
      obtain ⟨hd, allowed, -, hr⟩ := mem_list_iff.1 hd
      exact ⟨d, hd, hname, allowed, hr⟩
  names lead := by
    rw [names_eq, list_eq, List.map_map]
    simp only [Option.all_none, Bool.and_true]
    rfl
  help lead := Command.completeHelp_setting scope lead
  nodup := nodup_suggestValue s scope
  present d raw display origin h := by
    obtain ⟨hd, allowed, -, heffective⟩ := mem_list_iff.1 h
    obtain ⟨hraw, -⟩ := effective_eq_set_iff.1 heffective
    refine ⟨fun typed => head?_suggestValue hd allowed hraw, ?_⟩
    rw [value?_eq (mem_visible_iff.1 hd).1, hraw]
    rfl
  absent d h := by
    obtain ⟨hd, -, -, heffective⟩ := mem_list_iff.1 h
    rw [value?_eq (mem_visible_iff.1 hd).1, effective_eq_unset_iff.1 heffective]
    rfl
  refused d hd h := by
    refine ⟨fun typed => ?_, fun r hr => ?_⟩
    · rw [suggestValue_eq hd, if_pos]
      rcases h with h | h <;> simp [h]
    · obtain ⟨e, he, hname, allowed, -⟩ := resolve_eq_ok_iff.1 hr
      rcases h with h | h
      · obtain rfl := List.inj_on_of_nodup_map nodup_names (mem_visible_iff.1 he).1 hd hname
        rw [h] at allowed
        cases allowed
      · exact name_ne_of_hidden hd h he hname
  hidden d hd h := by
    refine ⟨fun hmem => ?_, fun lead hmem => ?_, fun args w hw =>
      Command.not_mem_completeHelp_of_hidden hd h hw⟩
    · obtain ⟨⟨e, r⟩, he, hname⟩ := List.mem_map.1 hmem
      exact name_ne_of_hidden hd h (mem_list_iff.1 he).1 hname
    · obtain ⟨e, he, -, -, hname⟩ := mem_names_iff.1 hmem
      exact name_ne_of_hidden hd h he hname

end Store
end HubConsole
