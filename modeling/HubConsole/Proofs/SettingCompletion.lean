import HubConsole.Proofs.Completion
import HubConsole.Proofs.Layers
import HubConsole.Proofs.ShownSettings
import HubConsole.Proofs.Stored

/-! # Completing a setting

A completion of a command that sets settings is a line that the command accepts
(`suggest_setting`). Its names are names of settings, and its values are stored as they stand: the
words of a kind are canonical texts, and so is whatever is stored. The default of an interval is the
exception: it is written in units, but stored as a number of seconds. -/

namespace HubConsole
open Setting Text Result

namespace Text
variable {word cs : List Char}

theorem trim_blank_cons : trim (' ' :: cs) = trim cs := rfl

/-- A word and a trimmed text after it are trimmed together. -/
theorem trim_word_append (hword : ∀ c ∈ word, isBlank c = false) (hne : word ≠ [])
    (hcs : trim cs = cs) (hrest : cs ≠ []) : trim (word ++ ' ' :: cs) = word ++ ' ' :: cs := by
  refine trim_eq_self_iff.2 ⟨fun c hc => ?_, fun c hc => ?_⟩
  · rw [List.head?_append_of_ne_nil _ hne] at hc
    exact hword c (List.mem_of_mem_head? hc)
  · refine (trim_eq_self_iff.1 hcs).2 c ?_
    simpa [List.getLast?_append, List.getLast?_cons, List.getLast?_eq_some_getLast hrest] using hc

end Text

namespace Store
variable {s : Store} {d : Definition} {scope : Scope} {key raw text typed w : String}
  {origin : Origin}

/-! ## Values that are offered -/

/-- What a text is stored as does not depend on the home directory, unless it is a path. -/
theorem canonical_of_home {t : Store} (h : d.kind ≠ .path) :
    s.canonical d raw = t.canonical d raw := by
  unfold canonical
  rw [Kind.parse_of_home h s.home t.home]

theorem assign_of_canonical (hd : d ∈ visible) (allowed : d.tiers.allows scope = true)
    (h : s.canonical d raw = .ok text) :
    ∃ r, s.assign scope d.name raw = .ok (s.set scope.id d.name text, r) := by
  obtain ⟨v, hparse, hcheck, rfl⟩ := canonical_eq_ok_iff.1 h
  exact ⟨_, assign_eq_ok_iff.2 ⟨d, v, definition_eq_ok_iff.2 ⟨rfl, hd⟩, allowed, hparse, hcheck,
    rfl, rfl⟩⟩

theorem clear_of_allows (hd : d ∈ visible) (allowed : d.tiers.allows scope = true) :
    ∃ r, s.clear scope d.name = .ok (s.erase scope.id d.name, r) :=
  ⟨_, clear_eq_ok_iff.2 ⟨d, definition_eq_ok_iff.2 ⟨rfl, hd⟩, allowed, rfl, rfl⟩⟩

/-- A valid value is stored as it stands. -/
theorem IsSetting.canonical {id : HubId} (hd : d ∈ visible)
    (h : IsSetting s.home ⟨id, d.name, raw⟩) : IsTrimmed raw ∧ s.canonical d raw = .ok raw := by
  obtain ⟨d', v, hd', -, hparse, rfl, htrimmed, hcheck⟩ := h
  obtain rfl : d = d' := Except.ok.inj ((definition_eq_ok_iff.2 ⟨rfl, hd⟩).symm.trans hd')
  exact ⟨htrimmed, canonical_eq_ok_iff.2 ⟨v, hparse, hcheck, rfl⟩⟩

/-- Every default is accepted. It is stored as it stands, but for intervals. -/
theorem canonical_default (hd : d ∈ visible) (h : d.default? = some raw) : IsTrimmed raw ∧
    ∃ text, s.canonical d raw = .ok text ∧ (text = raw ∨ d.kind = .interval) := by
  have hall : ∀ d ∈ visible, ∀ raw ∈ d.default?, d.kind ≠ .path ∧
      (trim raw.toList = raw.toList ∧ raw ≠ "") ∧ ∃ text ∈ ((empty "/").canonical d raw).toOption,
        text = raw ∨ d.kind = .interval := by
    decide +kernel
  obtain ⟨hpath, htrimmed, text, htext, hor⟩ := hall d hd raw h
  rw [canonical_of_home (t := empty "/") hpath]
  exact ⟨htrimmed, text, toOption_eq_some_iff.1 htext, hor⟩

end Store

namespace Kind
variable {k : Kind} {typed w : String}

/-- The words that a kind has for its values. -/
def words : Kind → List String
  | bool => ["false", "true"]
  | choice options => options
  | style => Style.words
  | _ => []

theorem mem_of_mem_completeFrom {words : List String} (h : w ∈ completeFrom words typed) :
    w ∈ words :=
  List.mem_of_mem_filter h

/-- Where no list of names is begun, only single words are offered. -/
theorem mem_words_of_mem_suggest (h : w ∈ k.suggest typed)
    (single : k = .style → ',' ∉ typed.toList) : w ∈ k.words := by
  cases k with
  | bool | choice => exact mem_of_mem_completeFrom h
  | style =>
    simp only [suggest, cutAfterLast_of_forall (beq_eq_false_of_not_mem (single rfl))] at h
    obtain ⟨word, hword, rfl⟩ := List.mem_map.1 h
    rw [show String.ofList [] ++ word = word by simp]
    exact mem_of_mem_completeFrom hword
  | int | text | path | pattern | interval | speed => cases h

end Kind

namespace Store
variable {s : Store} {d : Definition} {scope : Scope} {key raw text typed w : String}
  {origin : Origin}

/-- The words of a kind are stored as they stand. -/
theorem canonical_word (hd : d ∈ visible) (h : w ∈ d.kind.words) :
    IsTrimmed w ∧ s.canonical d w = .ok w := by
  have hall : ∀ d ∈ visible, ∀ w ∈ d.kind.words, d.kind ≠ .path ∧
      (trim w.toList = w.toList ∧ w ≠ "") ∧ ((empty "/").canonical d w).toOption = some w := by
    decide +kernel
  obtain ⟨hpath, htrimmed, htext⟩ := hall d hd w h
  rw [canonical_of_home (t := empty "/") hpath]
  exact ⟨htrimmed, toOption_eq_some_iff.1 htext⟩

theorem mem_suggestValue (h : w ∈ s.suggestValue scope key typed) :
    ∃ d ∈ visible, d.name = key ∧ d.tiers.allows scope = true ∧
      ((∃ origin, s.effectiveRaw? d scope = some (w, origin)) ∨ w ∈ d.kind.suggest typed) := by
  unfold suggestValue at h
  split at h
  · cases h
  next d hfind =>
  obtain ⟨hname, hmem⟩ := find?_eq_some_iff.1 hfind
  split at h
  · cases h
  next hshown =>
  simp only [Bool.or_eq_true, Bool.not_eq_true', not_or, Bool.not_eq_true, Bool.not_eq_false]
    at hshown
  refine ⟨d, mem_visible_iff.2 ⟨hmem, hshown.1⟩, hname, hshown.2, ?_⟩
  refine (Completion.mem_of_mem_foldl (fun out word h => ?_) _ h).imp_left fun h => ?_
  · split at h
    · exact .inl h
    · simpa using h
  · split at h
    · next raw origin heff =>
      split at h
      · rw [List.mem_singleton.1 h]
        exact ⟨origin, heff⟩
      · cases h
    · cases h

/-- Whatever a setting amounts to can be assigned to it in the same scope. It is stored as it
stands, but for the default of an interval. -/
theorem Sound.canonical_effectiveRaw? (h : s.Sound) (hd : d ∈ visible)
    (hscope : .ofId scope.id = scope) (heff : s.effectiveRaw? d scope = some (raw, origin)) :
    IsTrimmed raw ∧ ∃ text, s.canonical d raw = .ok text ∧
      (text = raw ∨ d.kind = .interval ∧ origin = .default) := by
  have hstored : ∀ {id}, s.get? id d.name = some raw →
      IsTrimmed raw ∧ ∃ text, s.canonical d raw = .ok text ∧
        (text = raw ∨ d.kind = .interval ∧ origin = .default) := by
    intro id hget
    have hnote : d.name ∉ noteNames := fun hmem => visible_name_ne hd hmem rfl
    obtain ⟨htrimmed, hcanonical⟩ := (h.settings id _ _ hnote hget).canonical hd
    exact ⟨htrimmed, raw, hcanonical, .inl rfl⟩
  unfold effectiveRaw? at heff
  dsimp only at heff
  split at heff
  · next hown =>
    obtain ⟨rfl, rfl⟩ := Prod.mk.inj (Option.some.inj heff)
    split at hown
    · split at hown
      · exact hstored hown
      · cases hown
    · cases hown
  · split at heff
    · next hglobal =>
      obtain ⟨rfl, rfl⟩ := Prod.mk.inj (Option.some.inj heff)
      split at hglobal
      · exact hstored hglobal
      · cases hglobal
    · obtain ⟨_, hdefault, heq⟩ := Option.map_eq_some_iff.1 heff
      obtain ⟨rfl, rfl⟩ := Prod.mk.inj heq
      obtain ⟨htrimmed, text, htext, hor⟩ := canonical_default (s := s) hd hdefault
      exact ⟨htrimmed, text, htext, hor.imp_right fun hkind => ⟨hkind, rfl⟩⟩

/-- A value that is offered for a setting is accepted. It is stored as it stands, but for the
default of an interval. -/
theorem Sound.canonical_suggestValue (h : s.Sound) (hscope : .ofId scope.id = scope)
    (hw : w ∈ s.suggestValue scope key typed)
    (single : ∀ d, definition key = .ok d → d.kind = .style → ',' ∉ typed.toList) :
    ∃ d ∈ visible, d.name = key ∧ d.tiers.allows scope = true ∧ IsTrimmed w ∧
      ∃ text, s.canonical d w = .ok text ∧
        (text = w ∨ d.kind = .interval ∧ s.effectiveRaw? d scope = some (w, .default)) := by
  obtain ⟨d, hd, hname, hallowed, hor⟩ := mem_suggestValue hw
  refine ⟨d, hd, hname, hallowed, ?_⟩
  rcases hor with ⟨origin, heff⟩ | hword
  · obtain ⟨htrimmed, text, htext, hor⟩ := h.canonical_effectiveRaw? hd hscope heff
    refine ⟨htrimmed, text, htext, hor.imp_right ?_⟩
    rintro ⟨hkind, rfl⟩
    exact ⟨hkind, heff⟩
  · have hwords := Kind.mem_words_of_mem_suggest hword
      (single d (definition_eq_ok_iff.2 ⟨hname, hd⟩))
    obtain ⟨htrimmed, htext⟩ := canonical_word (s := s) hd hwords
    exact ⟨htrimmed, w, htext, .inl rfl⟩

end Store

namespace Session
open Store
variable {s : Session} {c : Command} {d : Definition} {tier : Tier} {scope : Scope}
  {args raw text w : String}

/-! ## Lines that set settings -/

/-- A setting that the scope has is shown. -/
theorem set_name (here : s.scopeOf? tier = some scope) (hd : d ∈ visible)
    (allowed : d.tiers.allows scope = true) :
    ∃ message, s.set tier d.name = .ok (s.info message) := by
  obtain ⟨-, hname, hplain⟩ := visible_name_plain hd
  have hmeans : Means d.name d := ⟨hd, .inr ((Glob.admits_iff_of_isPlain hplain).2 rfl)⟩
  obtain ⟨t, ht, hlists⟩ := lists_of_means s tier hmeans allowed
  obtain ⟨message, rfl⟩ := hlists.exists_info
  exact ⟨message, (set_of_word here hname).trans ht⟩

/-- A text that is accepted is stored as its canonical text. -/
theorem set_value (here : s.scopeOf? tier = some scope) (hd : d ∈ visible)
    (allowed : d.tiers.allows scope = true) (hraw : IsTrimmed raw)
    (htext : s.store.canonical d raw = .ok text) : ∃ message,
      s.set tier (trimmed (d.name ++ " " ++ raw)) =
        .ok ({ s with store := s.store.set scope.id d.name text }.info message) := by
  obtain ⟨hne, hname, -⟩ := visible_name_plain hd
  obtain ⟨r, hassign⟩ := assign_of_canonical hd allowed htext
  have hargs : (trimmed (d.name ++ " " ++ raw)).toList = d.name.toList ++ ' ' :: raw.toList := by
    simpa using trim_word_append hname (by simpa using hne) hraw.1 (by simpa using hraw.2)
  have hblank : ∀ c ∈ (' ' :: raw.toList).head?, isBlank c = true := by simp [isBlank]
  unfold Session.set
  rw [scopeOf_eq_ok_iff.2 here, hargs, takeWhile_word hname hblank, dropWhile_word hname hblank,
    trim_blank_cons, hraw.1, String.ofList_toList, String.ofList_toList]
  change ∃ message, (if (raw == "") = true then _ else _) = _
  rw [if_neg (by simpa using hraw.2), hassign]
  exact ⟨_, rfl⟩

theorem unset_name (here : s.scopeOf? tier = some scope) (hd : d ∈ visible)
    (allowed : d.tiers.allows scope = true) : ∃ message, s.unset tier d.name =
      .ok ({ s with store := s.store.erase scope.id d.name }.info message) := by
  obtain ⟨hne, -, -⟩ := visible_name_plain hd
  obtain ⟨r, hclear⟩ := clear_of_allows (s := s.store) hd allowed
  unfold unset
  rw [scopeOf_eq_ok_iff.2 here]
  change ∃ message, (if (d.name == "") = true then _ else _) = _
  rw [if_neg (by simpa using hne), hclear]
  cases r with
  | unset => exact ⟨_, rfl⟩
  | set => exact ⟨_, rfl⟩

/-! ## Completed lines -/

theorem mem_completeSetting (h : w ∈ s.completeSetting tier args) :
    ∃ scope, s.scopeOf? tier = some scope ∧
      ((cutFirst? ' ' args.toList = none ∧ w ∈ names scope args) ∨
        ∃ key typed value, cutFirst? ' ' args.toList = some (key, typed) ∧
          value ∈ s.store.suggestValue scope (.ofList key) (.ofList typed) ∧
          w = .ofList key ++ " " ++ value) := by
  unfold completeSetting at h
  split at h
  · cases h
  · next scope here =>
    refine ⟨scope, here, ?_⟩
    split at h
    · next hcut => exact .inl ⟨hcut, h⟩
    · next key typed hcut =>
      obtain ⟨value, hvalue, rfl⟩ := List.mem_map.1 h
      exact .inr ⟨key, typed, value, hcut, hvalue, rfl⟩

theorem mem_completeSettingName (h : w ∈ s.completeSettingName tier args) :
    ∃ scope, s.scopeOf? tier = some scope ∧ w ∈ names scope args := by
  unfold completeSettingName at h
  split at h
  · cases h
  · next scope here =>
    split at h
    · cases h
    · exact ⟨scope, here, h⟩

theorem trimmed_name (hd : d ∈ visible) : trimmed d.name = d.name := by
  rw [trimmed, trim_eq_self_of_forall (visible_name_plain hd).2.1, String.ofList_toList]

/-- A command that sets settings accepts the name of each setting in its scope. -/
theorem dispatch_name (sets : c = .set tier ∨ c = .unset tier)
    (here : s.scopeOf? tier = some scope) (hd : d ∈ visible)
    (allowed : d.tiers.allows scope = true) :
    ∃ message, (s.dispatch (c.line d.name)).log = s.log ++ [⟨.info, message⟩] := by
  rw [Command.dispatch_line (by rintro rfl; rcases sets with sets | sets <;> cases sets),
    trimmed_name hd]
  rcases sets with rfl | rfl
  · obtain ⟨message, hset⟩ := set_name here hd allowed
    rw [Command.run, hset]
    exact ⟨message, rfl⟩
  · obtain ⟨message, hunset⟩ := unset_name here hd allowed
    rw [Command.run, hunset]
    exact ⟨message, rfl⟩

/-- The line that sets a setting stores the canonical text of an accepted value. -/
theorem dispatch_value (here : s.scopeOf? tier = some scope) (hd : d ∈ visible)
    (allowed : d.tiers.allows scope = true) (hraw : IsTrimmed raw)
    (htext : s.store.canonical d raw = .ok text) :
    let t := s.dispatch ((Command.set tier).line (d.name ++ " " ++ raw))
    t.store.get? scope.id d.name = some text ∧
      ∃ message, t.log = s.log ++ [⟨.info, message⟩] := by
  intro t
  obtain ⟨message, hset⟩ := set_value here hd allowed hraw htext
  have ht : t = _ := Command.dispatch_line (c := .set tier) (by simp)
  rw [ht, Command.run, hset]
  exact ⟨get?_set_self _ _ _ _, message, rfl⟩

/-- In a run that starts without settings, every line that is offered for a command that sets
settings is accepted, unless a second name is begun in the value of a style. A value that is offered
is stored as it stands, but for the default of an interval, which is stored as a number of
seconds. -/
theorem suggest_setting (home : String) (link : Link) (es : List Event)
    (sets : c = .set tier ∨ c = .unset tier)
    (single : ∀ key typed d, cutFirst? ' ' args.toList = some (key, typed) →
      definition (.ofList key) = .ok d → d.kind = .style → ',' ∉ typed) :
    let s := (new (.empty home) link).after es
    ∀ w ∈ s.suggest (c.line args),
      (∃ message, (s.dispatch w).log = s.log ++ [⟨.info, message⟩]) ∧
      ∀ key typed, c = .set tier → cutFirst? ' ' args.toList = some (key, typed) →
        ∃ scope, s.scopeOf? tier = some scope ∧ ∃ d ∈ visible, d.name = .ofList key ∧
          ∃ value text, w = c.line (d.name ++ " " ++ value) ∧
            s.store.canonical d value = .ok text ∧
            (s.dispatch w).store.get? scope.id d.name = some text ∧
            (text = value ∨
              d.kind = .interval ∧ s.store.effectiveRaw? d scope = some (value, .default)) := by
  intro s w offered
  have hsound : s.Sound := after_induction (sound_new home link) (fun _ e h => h.step e) es
  obtain ⟨w, hw, rfl⟩ := Command.mem_suggest_line offered
  rcases sets with rfl | rfl
  · obtain ⟨scope, here, ⟨hcut, hname⟩ | ⟨key, typed, value, hcut, hvalue, rfl⟩⟩ :=
      mem_completeSetting hw
    · obtain ⟨d, hd, allowed, -, rfl⟩ := mem_names_iff.1 hname
      refine ⟨dispatch_name (.inl rfl) here hd allowed, fun key typed _ hcut' => ?_⟩
      rw [hcut] at hcut'
      cases hcut'
    · obtain ⟨d, hd, hname, allowed, htrimmed, text, htext, hor⟩ :=
        hsound.store.canonical_suggestValue (hsound.ofId_scope here) hvalue fun d hd hkind => by
          simpa using single key typed d hcut hd hkind
      rw [← hname]
      obtain ⟨hget, hlog⟩ := dispatch_value here hd allowed htrimmed htext
      refine ⟨hlog, fun key' typed' _ hcut' => ?_⟩
      obtain ⟨rfl, rfl⟩ := Prod.mk.inj (Option.some.inj (hcut.symm.trans hcut'))
      exact ⟨scope, here, d, hd, hname, value, text, rfl, htext, hget, hor⟩
  · obtain ⟨scope, here, hname⟩ := mem_completeSettingName hw
    obtain ⟨d, hd, allowed, -, rfl⟩ := mem_names_iff.1 hname
    exact ⟨dispatch_name (.inr rfl) here hd allowed, fun key typed hset => nomatch hset⟩

theorem suggest_setting_policy :
    let s := new (.empty "/") .offline
    let w := "/set tls_policy disabled"
    (∀ key typed d, cutFirst? ' ' "tls_policy d".toList = some (key, typed) →
      definition (.ofList key) = .ok d → d.kind = .style → ',' ∉ typed) ∧
    w ∈ s.suggest ((Command.set .global).line "tls_policy d") ∧
    (∃ message, (s.dispatch w).log = s.log ++ [⟨.info, message⟩]) ∧
    (s.dispatch w).store.get? 0 "tls_policy" = some "disabled" := by
  intro s w
  have hsingle : ∀ key typed d, cutFirst? ' ' "tls_policy d".toList = some (key, typed) →
      definition (.ofList key) = .ok d → d.kind = .style → ',' ∉ typed := by
    intro key typed d hcut _ _
    have htyped : cutFirst? ' ' "tls_policy d".toList = some ("tls_policy".toList, ['d']) := by
      decide
    obtain ⟨-, rfl⟩ := Prod.mk.inj (Option.some.inj (htyped.symm.trans hcut))
    decide
  have hoffered : w ∈ s.suggest ((Command.set .global).line "tls_policy d") := by decide +kernel
  exact ⟨hsingle, hoffered,
    (suggest_setting "/" .offline [] (.inl rfl) hsingle w hoffered).1, by decide +kernel⟩

/-- It is not so that a value that is offered is always stored as it stands. -/
theorem not_suggest_setting : ¬ ∀ (home : String) (link : Link) (es : List Event)
    (key typed value : String),
    let s := (new (.empty home) link).after es
    let c := Command.set .global
    ',' ∉ typed.toList →
      c.line (key ++ " " ++ value) ∈ s.suggest (c.line (key ++ " " ++ typed)) →
      (s.dispatch (c.line (key ++ " " ++ value))).store.get? 0 key = some value := by
  intro h
  have hoffered : (Command.set .global).line ("filelist_maxage" ++ " " ++ "1w") ∈
      ((new (.empty "/") .offline).after []).suggest
        ((Command.set .global).line ("filelist_maxage" ++ " " ++ "")) := by decide +kernel
  have hstored := h "/" .offline [] "filelist_maxage" "" "1w" (by decide) hoffered
  revert hstored
  decide +kernel

end Session
end HubConsole
