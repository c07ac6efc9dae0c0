import HubConsole.Proofs.Completion
import HubConsole.Proofs.Opening
import HubConsole.Proofs.Stored

/-! # Completing the name of a hub

What is offered for a line of `open` is the name of a hub, after `-n` if that was typed, and as a
line it opens that hub (`suggest_openHub`). Names of hubs have no blanks, so a name is read as one
word. There is one that is read as something else: a hub may be called `-n`, and where no option
stands before that name it is the option itself (`not_suggest_openHub`). -/

namespace HubConsole.Session
open Text Setting

variable {s : Session} {connects : Bool} {name args : String}

/-! ## Names of hubs -/

theorem isBlank_of_isHubNameChar {c : Char} (h : isHubNameChar c = true) : isBlank c = false := by
  simp only [isHubNameChar, Bool.or_eq_true, beq_iff_eq] at h
  rcases h with ((h | rfl) | rfl) | rfl
  · exact isBlank_of_isAlphanum h
  all_goals decide

theorem isHubName_toList (h : isHubName name = true) :
    name.toList ≠ [] ∧ ∀ c ∈ name.toList, isBlank c = false := by
  simp only [isHubName, Bool.and_eq_true, decide_eq_true_eq, List.all_eq_true] at h
  exact ⟨List.ne_nil_of_length_pos h.1.1, fun c hc => isBlank_of_isHubNameChar (h.2 c hc)⟩

namespace Opening

/-- The arguments that open a hub by its name. -/
def text (connects : Bool) (name : String) : String := (if connects then "" else "-n ") ++ name

theorem toList_text_true (name : String) : (text true name).toList = name.toList := by
  simp [text]

theorem toList_text_false (name : String) :
    (text false name).toList = "-n".toList ++ ' ' :: name.toList := by
  simp [text]

theorem words_text (h : isHubName name = true) : words (text connects name).toList =
    if connects then [name.toList] else ["-n".toList, name.toList] := by
  obtain ⟨hne, hblank⟩ := isHubName_toList h
  have hname : words name.toList = [name.toList] := words_eq_singleton hne hblank
  cases connects with
  | true => rw [toList_text_true, hname, if_pos rfl]
  | false =>
    rw [toList_text_false, words_append_cons (by decide), hname]
    rfl

theorem trimmed_text (h : isHubName name = true) :
    trimmed (text connects name) = text connects name := by
  obtain ⟨hne, hblank⟩ := isHubName_toList h
  have hlast : ∀ c ∈ name.toList.getLast?, isBlank c = false := fun c hc =>
    hblank c (List.mem_of_getLast? hc)
  rw [trimmed, ← String.toList_inj, String.toList_ofList, trim_eq_self_iff]
  cases connects with
  | true =>
    rw [toList_text_true]
    exact ⟨fun c hc => hblank c (List.mem_of_head? hc), hlast⟩
  | false =>
    rw [toList_text_false]
    refine ⟨by rintro _ ⟨⟩; decide, fun c hc => hlast c ?_⟩
    rwa [List.getLast?_append_of_ne_nil _ (List.cons_ne_nil _ _), List.getLast?_cons_of_ne_nil hne]
      at hc

theorem line_text (h : isHubName name = true) :
    Command.Line.parse? ("/open " ++ text connects name) = some ⟨"open", text connects name⟩ := by
  have hline : Command.Line.parse? (Command.openHub.line (text connects name)) =
      some ⟨"open", trimmed (text connects name)⟩ := Command.parse?_line (by decide)
  rwa [trimmed_text h] at hline

/-- The name is read back, but for one that is an option by itself. -/
theorem parse_text (h : isHubName name = true) (hoption : connects = true → name ≠ "-n") :
    Opening.parse (text connects name) = .ok ⟨connects, name, none⟩ := by
  unfold Opening.parse
  rw [words_text h]
  cases connects with
  | true => simp [hoption, h, readAddress]
  | false => simp [h, readAddress]

end Opening

/-! ## What is offered -/

theorem mem_completeHub {text : String} (h : text ∈ s.completeHub args) :
    ∃ connects name hub, text = Opening.text connects name ∧ hub ≠ 0 ∧
      s.store.get? hub hubName = some name := by
  have hname : ∀ (connects : Bool) {typed}, text ∈ (if occursIn ' ' typed then [] else
      prepend (if connects then "" else "-n ")
        (s.store.hubNames.filter fun name => startsWith name typed)) →
      ∃ name hub, text = Opening.text connects name ∧ hub ≠ 0 ∧
        s.store.get? hub hubName = some name := by
    intro connects typed htext
    split at htext
    · cases htext
    · obtain ⟨name, hmem, rfl⟩ := List.mem_map.1 htext
      obtain ⟨hub, hget⟩ := Store.mem_hubNames_iff.1 (List.mem_of_mem_filter hmem)
      exact ⟨name, hub, rfl, hget⟩
  unfold completeHub at h
  cases hdrop : dropLead? "-n ".toList args.toList with
  | none =>
    rw [hdrop] at h
    exact ⟨true, hname true h⟩
  | some rest =>
    rw [hdrop] at h
    exact ⟨false, hname false h⟩

/-- A hub is opened by its name as it stands on a line, but for the name that is an option. -/
theorem opens_text {hub : HubId} (h : s.Identified) (hsound : s.Sound) (hne : hub ≠ 0)
    (hget : s.store.get? hub hubName = some name) (hoption : connects = true → name ≠ "-n") :
    Opens s ⟨connects, name, none⟩ s.store hub
      (s.dispatch ("/open " ++ Opening.text connects name)) := by
  have hname : isHubName name = true := hsound.store.names hub name hget
  exact opens_dispatch (Opening.line_text hname) (Opening.parse_text hname hoption)
    (h.names.hubNamed? hne hget)

/-- All through a run that starts without settings, what is offered for a line of `open` is the name
of a hub, perhaps after `-n`. As a line it opens that hub: no error is reported, nothing is stored,
and the tab of the hub is the current one. Only `-n` alone, which is offered if a hub is called so,
is read as an option without a name and refused. -/
theorem suggest_openHub {home w : String} {link : Link} {es : List Event}
    (offered : w ∈ ((new (.empty home) link).after es).suggest ("/open " ++ args)) :
    let s := (new (.empty home) link).after es
    ∃ connects name hub, w = "/open " ++ Opening.text connects name ∧ hub ≠ 0 ∧
      s.store.get? hub hubName = some name ∧
      (w ≠ "/open -n" → Informs s (s.dispatch w) ∧ (s.dispatch w).store = s.store ∧
        (s.dispatch w).tabs.current = .hub hub) ∧
      (w = "/open -n" → s.dispatch w = s.error Failure.missingHubName.message) := by
  intro s
  obtain ⟨text, htext, rfl⟩ := Command.mem_suggest_line (c := .openHub) offered
  obtain ⟨connects, name, hub, rfl, hne, hget⟩ := mem_completeHub htext
  refine ⟨connects, name, hub, rfl, hne, hget, fun hother => ?_, fun hw => ?_⟩
  · have hoption : connects = true → name ≠ "-n" := by
      rintro rfl rfl
      exact hother rfl
    have hopens : Opens s ⟨connects, name, none⟩ s.store hub
        (s.dispatch ("/open " ++ Opening.text connects name)) :=
      opens_text (identified_after home link es) (sound_after home link es) hne hget hoption
    exact ⟨hopens.informs, hopens.store, hopens.current⟩
  · rw [hw]
    rfl

/-- A hub that was closed is offered after the option. -/
theorem suggest_openHub_option :
    let s := (new (.empty "/") .offline).after
      [.act (.line "/open -n home"), .act (.line "/close")]
    let t := s.dispatch "/open -n home"
    "/open -n home" ∈ s.suggest ("/open " ++ "-n h") ∧ s.tabs.current = .main ∧
      t.tabs.current = .hub 1 ∧ Informs s t ∧ t.store = s.store := by
  intro s t
  have hoffered : "/open -n home" ∈ s.suggest ("/open " ++ "-n h") := by decide +kernel
  have hbefore : s.tabs.current = .main := by decide +kernel
  have hafter : t.tabs.current = .hub 1 := by decide +kernel
  obtain ⟨_, _, _, -, -, -, hopened, -⟩ := suggest_openHub hoffered
  obtain ⟨hinforms, hstore, -⟩ := hopened (by decide)
  exact ⟨hoffered, hbefore, hafter, hinforms, hstore⟩

/-- It is not so that no line that is offered for `open` is refused. -/
theorem not_suggest_openHub : ¬ ∀ (link : Link) (es : List Event) (args w : String),
    w ∈ ((new (.empty "/") link).after es).suggest ("/open " ++ args) →
    Informs ((new (.empty "/") link).after es) (((new (.empty "/") link).after es).dispatch w) := by
  intro h
  let es : List Event := [.act (.line "/open -n -n")]
  have hoffered : "/open -n" ∈ ((new (.empty "/") .offline).after es).suggest ("/open " ++ "") := by
    decide +kernel
  exact Informs.not_error _ _ (h .offline es "" "/open -n" hoffered)

end HubConsole.Session
