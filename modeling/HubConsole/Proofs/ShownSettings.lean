import HubConsole.Proofs.Listing
import HubConsole.Proofs.Outcome

/-! # Showing settings

A command that sets settings shows them if nothing follows its key (`shows_settings`): those of its
scope that the key stands for are listed, with a row for each that shows its name and its value
(`Shows`). If there are none, the error tells whether the other command has some. A key without
wildcards stands for the setting of that name alone, so the list, the search at the other tier and
the look-up by name cannot come to different ends, and what a look-up finds has always been listed
before. -/

namespace HubConsole
open Text Setting

namespace Session
open Store Result

/-- The settings that a key stands for, all of them if it is empty. -/
def Means (key : String) (d : Definition) : Prop :=
  d ∈ visible ∧ (key = "" ∨ Glob.admits key d.name = true)

/-- What is told of a setting in a scope: its value as it is displayed, with a note if the value
comes from elsewhere. -/
inductive Tells : Scope → Resolved → String → Prop
  | unset (scope : Scope) : Tells scope .unset "not set"
  | default (scope : Scope) (raw display : String) :
    Tells scope (.set raw display .default) (display ++ " (default)")
  | hub (scope : Scope) (raw display : String) : Tells scope (.set raw display .hub) display
  | global (raw display : String) : Tells .global (.set raw display .global) display
  | inherited (id : HubId) (raw display : String) :
    Tells (.hub id) (.set raw display .global) (display ++ " (global)")

/-- A row shows the name of a setting, filled with blanks to a width of 20, and what it is resolved
to. -/
def Shows (scope : Scope) (row : Definition × Resolved) (text : String) : Prop :=
  ∃ told, Tells scope row.2 told ∧
    text = String.ofList (row.1.name.toList.rightpad 20 ' ') ++ " " ++ told

/-- The settings of a scope that a key stands for are listed by one message: a row for each of them
with what it is resolved to, in the order of their names. -/
def Lists (s : Session) (scope : Scope) (key : String) (t : Session) : Prop :=
  ∃ rows : List (Definition × Resolved), rows ≠ [] ∧ (rows.map (·.1.name)).Pairwise (· < ·) ∧
    (∀ d r, (d, r) ∈ rows ↔
      Means key d ∧ d.tiers.allows scope = true ∧ s.store.resolve scope d.name = .ok r) ∧
    ∃ texts, List.Forall₂ (Shows scope) rows texts ∧
      t = { s with log := s.log ++ [⟨.info, "\n".intercalate texts⟩] }

/-- The text ends in the advice to use a command. -/
def Advises (text command : String) : Prop :=
  (" try /" ++ command ++ ".").toList <:+ text.toList ∨
    (" use /" ++ command ++ " instead.").toList <:+ text.toList

variable {s t : Session} {tier : Tier} {scope scope' : Scope} {key line : String}
  {d : Definition} {r : Resolved}

/-! ## The list -/

theorem tells_text (scope : Scope) (r : Resolved) :
    Tells scope r (r.text ++ originNote scope r.origin?) := by
  cases r with
  | unset => exact .unset scope
  | set raw display origin =>
    cases origin with
    | default => exact .default scope raw display
    | hub =>
      show Tells scope _ (display ++ "")
      rw [String.append_empty]
      exact .hub scope raw display
    | global =>
      cases scope with
      | global =>
        show Tells .global _ (display ++ "")
        rw [String.append_empty]
        exact .global raw display
      | hub id => exact .inherited id raw display

theorem shows_settingLine (scope : Scope) (row : Definition × Resolved) :
    Shows scope row (settingLine scope row.1 row.2) := by
  refine ⟨_, tells_text scope row.2, ?_⟩
  rw [← padRight_eq_rightpad, ← String.append_assoc]
  rfl

theorem forall₂_settingLine (scope : Scope) (rows : List (Definition × Resolved)) :
    List.Forall₂ (Shows scope) rows (rows.map fun row => settingLine scope row.1 row.2) :=
  List.forall₂_map_right_iff.2 (List.forall₂_same.2 fun row _ => shows_settingLine scope row)

theorem mem_list_key_iff :
    (d, r) ∈ s.store.list scope (if key == "" then none else some key) ↔
      Means key d ∧ d.tiers.allows scope = true ∧ s.store.resolve scope d.name = .ok r := by
  have hpattern : (∀ pattern ∈ (if key == "" then none else some key : Option String),
      Glob.admits pattern d.name = true) ↔ key = "" ∨ Glob.admits key d.name = true := by
    by_cases hkey : key = "" <;> simp [hkey]
  rw [mem_list_iff, hpattern, resolve_eq_ok_iff]
  constructor
  · rintro ⟨hd, allowed, hkey, hr⟩
    exact ⟨⟨hd, hkey⟩, allowed, d, hd, rfl, allowed, hr⟩
  · rintro ⟨⟨hd, hkey⟩, allowed, e, he, hname, -, hr⟩
    obtain rfl := List.inj_on_of_nodup_map nodup_visible_names he hd hname
    exact ⟨hd, allowed, hkey, hr⟩

theorem lists_of_means (s : Session) (tier : Tier) (hd : Means key d)
    (allowed : d.tiers.allows scope = true) :
    ∃ t, s.showSettings tier scope key = .ok t ∧ Lists s scope key t := by
  obtain ⟨r, hr⟩ : ∃ r, s.store.resolve scope d.name = .ok r :=
    ⟨_, resolve_eq_ok_iff.2 ⟨d, hd.1, rfl, allowed, rfl⟩⟩
  have hne := List.ne_nil_of_mem (mem_list_key_iff.2 ⟨hd, allowed, hr⟩)
  refine ⟨_, ?_, _, hne, sorted_list s.store scope _, fun d r => mem_list_key_iff, _,
    forall₂_settingLine scope _, rfl⟩
  obtain ⟨row, rows, hrows⟩ := List.exists_cons_of_ne_nil hne
  unfold showSettings
  rw [hrows, ← joinWith_eq_intercalate]
  rfl

theorem Lists.exists_info (h : Lists s scope key t) : ∃ message, t = s.info message := by
  obtain ⟨-, -, -, -, texts, -, rfl⟩ := h
  exact ⟨"\n".intercalate texts, rfl⟩

theorem list_eq_nil (h : ¬ ∃ d, Means key d ∧ d.tiers.allows scope = true) :
    s.store.list scope (if key == "" then none else some key) = [] :=
  List.eq_nil_iff_forall_not_mem.2 fun ⟨d, _⟩ hmem =>
    have hd := mem_list_key_iff.1 hmem
    h ⟨d, hd.1, hd.2.1⟩

/-- There are settings in every scope. -/
theorem exists_means_empty (scope : Scope) : ∃ d, Means "" d ∧ d.tiers.allows scope = true := by
  have hany : (visible.any fun d => d.tiers = .both) = true := by decide +kernel
  obtain ⟨d, hd, hboth⟩ := List.any_eq_true.1 hany
  refine ⟨d, ⟨hd, .inl rfl⟩, ?_⟩
  rw [of_decide_eq_true hboth]
  cases scope <;> rfl

/-- A setting that the scope does not have is one of the other tier. -/
theorem allows_other (here : s.scopeOf? tier = some scope)
    (there : t.scopeOf? tier.other = some scope') (h : d.tiers.allows scope = false) :
    d.tiers.allows scope' = true := by
  have hscope : ∀ {s : Session} {tier scope}, s.scopeOf? tier = some scope →
      (tier = .global ∧ scope = .global) ∨ tier = .hub ∧ ∃ id, scope = .hub id := by
    intro s tier scope h
    cases tier with
    | global => exact .inl ⟨rfl, (Option.some.inj h).symm⟩
    | hub =>
      obtain ⟨id, -, rfl⟩ := Option.map_eq_some_iff.1 h
      exact .inr ⟨rfl, id, rfl⟩
  rcases hscope here with ⟨rfl, rfl⟩ | ⟨rfl, _, rfl⟩ <;>
  rcases hscope there with ⟨htier, rfl⟩ | ⟨htier, _, rfl⟩ <;>
  · cases hd : d.tiers <;> simp_all [Tiers.allows, Tiers.allowsGlobal, Tiers.allowsHub, Tier.other]

/-! ## Advice -/

theorem suffix_of_eq_append {text tail : String} (lead : String) (h : text = lead ++ tail) :
    tail.toList <:+ text.toList :=
  ⟨lead.toList, by rw [h, String.toList_append]⟩

theorem advises_otherTier (command : String) :
    Advises (Failure.otherTier command).message command := by
  refine .inl (suffix_of_eq_append "No matching settings at this tier," ?_)
  rw [← String.append_assoc, ← String.append_assoc]
  rfl

theorem advises_refusal (here : s.scopeOf? tier = some scope) :
    Advises (Failure.badSetting (refusal key .read scope)).message tier.other.setCommand := by
  cases tier with
  | global =>
    obtain rfl := Option.some.inj here
    exact .inr (suffix_of_eq_append ("'" ++ key ++ "' is a hub setting,")
      (by rw [String.append_assoc]; rfl))
  | hub =>
    obtain ⟨id, -, rfl⟩ := Option.map_eq_some_iff.1 here
    exact .inr (suffix_of_eq_append ("'" ++ key ++ "' is a global setting,")
      (by rw [String.append_assoc]; rfl))

/-- What ends in a quoted word gives no advice. -/
theorem not_advises_quoted (tier : Tier) (text : String) :
    ¬ Advises (text ++ "'.") tier.setCommand := by
  -- the character before the stop is a quote, or one of a command or of `instead`
  have hsecond : ∀ {tail : String}, tail.toList <:+ (text ++ "'.").toList →
      2 ≤ tail.toList.length → tail.toList.reverse[1]? = some '\'' := by
    intro tail h hlength
    obtain ⟨rest, hrest⟩ := List.reverse_prefix.2 h
    have hget := congrArg (·[1]?) hrest
    rw [List.getElem?_append_left (by rw [List.length_reverse]; omega), String.toList_append,
      List.reverse_append] at hget
    exact hget
  rintro (h | h) <;> cases tier <;>
  · exact absurd (hsecond h (by decide)) (by decide)

/-! ## What a key comes to -/

theorem isPlain_of_not_isWild (h : isWild key = false) : Glob.isPlain key.toList = true := by
  simp only [isWild, occursIn, Bool.or_eq_false_iff, List.contains_eq_mem,
    decide_eq_false_iff_not] at h
  refine List.all_eq_true.2 fun c hc => ?_
  simp only [Bool.and_eq_true, bne_iff_ne]
  exact ⟨⟨fun hrun => h.1.1 (hrun ▸ hc), fun hany => h.1.2 (hany ▸ hc)⟩,
    fun hclass => h.2 (hclass ▸ hc)⟩

/-- A key without wildcards is the name of the setting that it stands for. -/
theorem means_iff_of_not_isWild (hwild : isWild key = false) (hkey : key ≠ "") :
    Means key d ↔ d ∈ visible ∧ d.name = key := by
  rw [Means, Glob.admits_iff_of_isPlain (isPlain_of_not_isWild hwild)]
  exact and_congr_right fun _ => or_iff_right hkey

/-- What can be looked up by its name has been listed. -/
theorem resolve_ne_ok (hlist : s.store.list scope (if key == "" then none else some key) = [])
    (hwild : isWild key = false) (r : Resolved) : s.store.resolve scope key ≠ .ok r := by
  intro hr
  obtain ⟨d, hd, rfl, allowed, -⟩ := resolve_eq_ok_iff.1 hr
  have hmeans : Means d.name d :=
    (means_iff_of_not_isWild hwild (visible_name_plain hd).1).2 ⟨hd, rfl⟩
  have hmem := mem_list_key_iff.2 ⟨hmeans, allowed, hr⟩
  rw [hlist] at hmem
  cases hmem

/-- If nothing is listed, the error advises the other command iff that has something to list. -/
theorem showSettings_of_not_means (here : s.scopeOf? tier = some scope)
    (hnone : ¬ ∃ d, Means key d ∧ d.tiers.allows scope = true) :
    ∃ f : Failure, s.showSettings tier scope key = .error f ∧
      (Advises f.message tier.other.setCommand ↔
        ∃ d, Means key d ∧ d.tiers.allows scope = false) := by
  have hkey : key ≠ "" := by
    rintro rfl
    exact hnone (exists_means_empty scope)
  have hlist := list_eq_nil (s := s) hnone
  cases hwild : isWild key with
  | true =>
    have helsewhere : matchesElsewhere scope key = true ↔
        ∃ d, Means key d ∧ d.tiers.allows scope = false := by
      simp only [matchesElsewhere_iff, Means, hkey, false_or]
      exact exists_congr fun d => by rw [and_assoc, and_comm (a := _ = false)]
    cases hother : matchesElsewhere scope key with
    | true =>
      refine ⟨.otherTier tier.other.setCommand, ?_, ?_⟩
      · unfold showSettings
        rw [hlist, hwild, hother]
        rfl
      · exact iff_of_true (advises_otherTier _) (helsewhere.1 hother)
    | false =>
      refine ⟨.noMatch key, ?_, ?_⟩
      · unfold showSettings
        rw [hlist, hwild, hother]
        rfl
      · refine iff_of_false (not_advises_quoted tier.other _) fun h => ?_
        rw [helsewhere.2 h] at hother
        cases hother
  | false =>
    cases hresolve : s.store.resolve scope key with
    | ok r => exact absurd hresolve (resolve_ne_ok hlist hwild r)
    | error e =>
      refine ⟨.badSetting e, ?_, ?_⟩
      · unfold showSettings
        rw [hlist, hwild, hresolve]
        rfl
      · rcases resolve_eq_error_iff.1 hresolve with ⟨rfl, hunknown⟩ | ⟨d, hd, hname, hcheck⟩
        · refine iff_of_false (not_advises_quoted tier.other _) ?_
          rintro ⟨d, hmeans, -⟩
          obtain ⟨hd, hname⟩ := (means_iff_of_not_isWild hwild hkey).1 hmeans
          exact hunknown d hd hname
        · obtain ⟨rfl, htier⟩ := checkTier_eq_error_iff.1 hcheck
          exact iff_of_true (advises_refusal here)
            ⟨d, (means_iff_of_not_isWild hwild hkey).2 ⟨hd, hname⟩, htier⟩

/-! ## The command -/

/-- A key alone asks for what is set. -/
theorem set_of_word (here : s.scopeOf? tier = some scope)
    (word : ∀ c ∈ key.toList, isBlank c = false) :
    s.set tier key = s.showSettings tier scope key := by
  have hend : ∀ c ∈ ([] : List Char).head?, isBlank c = true := by simp
  have hkey := takeWhile_word word hend
  have hvalue := dropWhile_word word hend
  rw [List.append_nil] at hkey hvalue
  unfold Session.set
  rw [scopeOf_eq_ok_iff.2 here, hkey, hvalue, String.ofList_toList]
  rfl

theorem dispatch_word (here : s.scopeOf? tier = some scope)
    (word : ∀ c ∈ key.toList, isBlank c = false)
    (reads : Command.Line.parse? line = some ⟨tier.setCommand, key⟩) :
    s.dispatch line = s.settle (s.showSettings tier scope key) := by
  rw [dispatch_of_parse? (c := .set tier) reads, Command.run, set_of_word here word]

theorem lists_dispatch (here : s.scopeOf? tier = some scope)
    (word : ∀ c ∈ key.toList, isBlank c = false)
    (reads : Command.Line.parse? line = some ⟨tier.setCommand, key⟩) (hd : Means key d)
    (allowed : d.tiers.allows scope = true) : Lists s scope key (s.dispatch line) := by
  obtain ⟨t, ht, hlists⟩ := lists_of_means s tier hd allowed
  rw [dispatch_word here word reads, ht]
  exact hlists

/-- A line of a command that sets settings, with a key alone, lists the settings of its scope that
the key stands for, if there are any; an empty key always has some. If there are none, one error is
reported. It advises to use the other command iff the key stands for settings of the other tier, and
with the same key that command then lists them wherever it can be used. No key that has nothing to
list and no wildcard can be looked up. -/
theorem shows_settings (here : s.scopeOf? tier = some scope)
    (word : ∀ c ∈ key.toList, isBlank c = false)
    (reads : Command.Line.parse? line = some ⟨tier.setCommand, key⟩) :
    (Lists s scope key (s.dispatch line) ↔ ∃ d, Means key d ∧ d.tiers.allows scope = true) ∧
    (key = "" → Lists s scope key (s.dispatch line)) ∧
    ((¬ ∃ d, Means key d ∧ d.tiers.allows scope = true) →
      ∃ text, s.dispatch line = { s with log := s.log ++ [⟨.error, text⟩] } ∧
        (Advises text tier.other.setCommand ↔
          ∃ d, Means key d ∧ d.tiers.allows scope = false)) ∧
    ((∃ d, Means key d ∧ d.tiers.allows scope = false) → ∀ (t : Session) scope' line',
      t.scopeOf? tier.other = some scope' →
      Command.Line.parse? line' = some ⟨tier.other.setCommand, key⟩ →
        Lists t scope' key (t.dispatch line')) ∧
    (s.store.list scope (if key == "" then none else some key) = [] → isWild key = false →
      ∀ r, s.store.resolve scope key ≠ .ok r) := by
  refine ⟨⟨?_, ?_⟩, ?_, fun hnone => ?_, ?_, resolve_ne_ok⟩
  · rintro ⟨rows, hne, -, hrows, -⟩
    obtain ⟨⟨d, r⟩, _, rfl⟩ := List.exists_cons_of_ne_nil hne
    obtain ⟨hd, allowed, -⟩ := (hrows d r).1 List.mem_cons_self
    exact ⟨d, hd, allowed⟩
  · rintro ⟨d, hd, allowed⟩
    exact lists_dispatch here word reads hd allowed
  · rintro rfl
    obtain ⟨d, hd, allowed⟩ := exists_means_empty scope
    exact lists_dispatch here word reads hd allowed
  · obtain ⟨f, hf, hadvises⟩ := showSettings_of_not_means here hnone
    exact ⟨f.message, by rw [dispatch_word here word reads, hf]; rfl, hadvises⟩
  · rintro ⟨d, hd, hother⟩ t scope' line' there reads'
    exact lists_dispatch there word reads' hd (allows_other here there hother)

/-- A pattern that only global settings match is refused at a hub, with the advice that helps. -/
theorem shows_settings_elsewhere :
    let s := (new (.empty "/") .offline).focus (.hub 1)
    s.scopeOf? .hub = some (.hub 1) ∧ (∀ c ∈ "color_*".toList, isBlank c = false) ∧
      Command.Line.parse? "/hset color_*" = some ⟨"hset", "color_*"⟩ ∧
      (∃ text, s.dispatch "/hset color_*" = { s with log := s.log ++ [⟨.error, text⟩] } ∧
        Advises text "set") ∧
      Lists s .global "color_*" (s.dispatch "/set  color_* ") := by
  intro s
  have here : s.scopeOf? .hub = some (.hub 1) := by decide
  have word : ∀ c ∈ "color_*".toList, isBlank c = false := by simp [isBlank]
  have reads : Command.Line.parse? "/hset color_*" = some ⟨"hset", "color_*"⟩ := rfl
  have hnone : ¬ ∃ d, Means "color_*" d ∧ d.tiers.allows (.hub 1) = true := by
    have hall : ∀ d ∈ visible, d.tiers.allows (.hub 1) = true →
        Glob.admits "color_*" d.name = false := by decide +kernel
    rintro ⟨d, ⟨hd, hempty | hadmits⟩, allowed⟩
    · exact absurd hempty (by decide)
    · rw [hall d hd allowed] at hadmits
      cases hadmits
  have helsewhere : ∃ d, Means "color_*" d ∧ d.tiers.allows (.hub 1) = false := by
    have hany : (visible.any fun d => !d.tiers.allows (.hub 1) && Glob.admits "color_*" d.name) =
        true := by decide +kernel
    obtain ⟨d, hd, hd'⟩ := List.any_eq_true.1 hany
    simp only [Bool.and_eq_true, Bool.not_eq_true'] at hd'
    exact ⟨d, ⟨hd, .inr hd'.2⟩, hd'.1⟩
  obtain ⟨-, -, herror, hlists, -⟩ := shows_settings here word reads
  obtain ⟨text, htext, hadvises⟩ := herror hnone
  exact ⟨here, word, reads, ⟨text, htext, hadvises.2 helsewhere⟩,
    hlists helsewhere s .global "/set  color_* " rfl (by decide)⟩

end Session
end HubConsole
