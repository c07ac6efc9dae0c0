import HubConsole.Proofs.Completion
import HubConsole.Proofs.Registry

/-! # Completing a command line

What is offered for a line that starts with a slash (`suggest_command`). While its name is typed,
these are the names of commands that go on from there, in their order; after the name, they are
lines of the same command. From what could complete the line the first ones are chosen
(`Chosen`). -/

namespace HubConsole
open Text

namespace Completion
variable {typed : String} {words : List String}

/-- What is chosen from the words that could complete a line: at most 20 of them, in their order and
without repetition, and none that is as long as the line. -/
structure Chosen (typed : String) (words out : List String) : Prop where
  length_le : out.length ≤ 20
  nodup : out.Nodup
  byteLength_ne : ∀ w ∈ out, byteLength w.toList ≠ byteLength typed.toList
  sublist : out.Sublist words
  /-- Another word is left out only after 20 that stand before it. -/
  complete : ∀ before w after, words = before ++ w :: after →
    byteLength w.toList ≠ byteLength typed.toList → w ∉ out →
      out.length = 20 ∧ ∀ v ∈ out, v ∈ before

theorem chosen_select (typed : String) (words : List String) :
    Chosen typed words (select typed words) := by
  refine ⟨?_, ?_, fun w hw => ?_, select_sublist typed words,
    fun before w after hwords hne hout => ?_⟩
  · rw [select_eq]
    exact List.length_take_le limit _
  · rw [select_eq]
    exact (nodup_eraseDups _).sublist (List.take_sublist _ _)
  · rw [select_eq] at hw
    have hmem := List.mem_eraseDups.1 (List.mem_of_mem_take hw)
    simpa [eligible] using (List.mem_filter.1 hmem).2
  · have heligible : eligible typed w = true := by simpa [eligible] using hne
    subst hwords
    rw [select_eq, List.filter_append, List.filter_cons_of_pos heligible] at hout ⊢
    obtain ⟨hlength, hbefore⟩ := length_of_not_mem_take hout
    exact ⟨hlength, fun v hv => (List.mem_filter.1 (hbefore v hv)).1⟩

/-! ## Names of commands -/

theorem candidates_name (s : Session) (h : ' ' ∉ typed.toList) :
    candidates s ("/" ++ typed) = commandNames typed := by
  have htext : ("/" ++ typed).toList = '/' :: typed.toList := by simp
  unfold candidates
  rw [htext]
  simp only [cutFirst?_eq_none_iff.2 h, String.ofList_toList]

/-- The names that go on from what is typed stand in their order. -/
theorem commandNames_eq (typed : String) : ∃ names : List String, names.Pairwise (· < ·) ∧
    (∀ n, n ∈ names ↔ (∃ c : Command, c.name = n) ∧ typed.toList <+: n.toList ∧ n ≠ typed) ∧
    commandNames typed = names.map fun n => "/" ++ n ++ " " := by
  refine ⟨_, ?_, fun n => ?_, rfl⟩
  · exact (Command.sorted_registry.pairwise_names.filter _).filter _
  · rw [List.mem_filter, Command.Registry.namesWith, List.mem_filter, Command.mem_names_registry,
      startsWith, List.isPrefixOf_iff_prefix, bne_iff_ne, and_assoc]

end Completion

namespace Session
open Completion

/-- For a line that starts with a slash, the first 20 of the words that could complete it are
offered, but for those as long as the line and for repetitions. If no space is typed, these words are
the names of commands that go on from the name typed, in their order, each between a slash and a
space, and each is the line of its command without arguments. If there is one and a command is named
before it, they are lines of the command that begin like what is typed up to the space; if none is
named, nothing is offered. -/
theorem suggest_command (s : Session) (rest : String) :
    let typed := "/" ++ rest
    let words := candidates s typed
    s.suggest typed = ((words.filter (eligible typed)).eraseDups).take 20 ∧
    Chosen typed words (s.suggest typed) ∧
    (' ' ∉ rest.toList → ∃ names : List String, names.Pairwise (· < ·) ∧
      (∀ n, n ∈ names ↔ (∃ c : Command, c.name = n) ∧ rest.toList <+: n.toList ∧ n ≠ rest) ∧
      words = (names.map fun n => "/" ++ n ++ " ") ∧
      ∀ n ∈ names, Command.Line.parse? ("/" ++ n ++ " ") = some ⟨n, ""⟩) ∧
    ∀ name args : String, ' ' ∉ name.toList → rest = name ++ " " ++ args →
      (∀ c : Command, c.name = name → ∀ w ∈ words, ∃ text, w = "/" ++ name ++ " " ++ text ∧
        ∃ args, Command.Line.parse? w = some ⟨c.name, args⟩) ∧
      ((∀ c : Command, c.name ≠ name) → s.suggest typed = []) := by
  intro typed words
  refine ⟨select_eq typed words, chosen_select typed words, fun hspace => ?_,
    fun name args hspace hrest => ?_⟩
  · obtain ⟨names, hsorted, hnames, hwords⟩ := commandNames_eq rest
    refine ⟨names, hsorted, hnames, (candidates_name s hspace).trans hwords, fun n hn => ?_⟩
    obtain ⟨⟨c, rfl⟩, -⟩ := (hnames n).1 hn
    have hline := Command.Line.parse?_named (Command.blank_not_mem_name c) ""
    rw [String.append_empty] at hline
    rw [hline]
    simp [Command.Line.make, trim, trimStart, trimEnd]
  · have htyped : typed = "/" ++ name ++ " " ++ args := by
      show "/" ++ rest = _
      rw [hrest, ← String.append_assoc, ← String.append_assoc]
    refine ⟨fun c hc w hw => ?_, fun hnone => ?_⟩
    · subst hc
      have hwords : words = (c.complete s args).map c.line := by
        rw [← Command.candidates_line, Command.line, ← htyped]
      rw [hwords] at hw
      obtain ⟨text, -, rfl⟩ := List.mem_map.1 hw
      refine ⟨text, rfl, (Command.Line.make c.name.toList text.toList).args, ?_⟩
      rw [Command.line, Command.Line.parse?_named hspace]
      simp [Command.Line.make]
    · have hname : Command.ofName? name = none :=
        Option.eq_none_iff_forall_ne_some.2 fun c hc =>
          hnone c (Command.ofName?_eq_some_iff.1 hc)
      have hwords : words = [] := by
        show candidates s typed = []
        rw [htyped, Command.candidates_unknown hspace hname]
      show select typed words = []
      rw [hwords]
      rfl

-- a name that is typed in full is not offered again
example : (new (.empty "/") .offline).suggest "/se" = ["/search ", "/set "] ∧
    (new (.empty "/") .offline).suggest "/set" = [] := by decide +kernel

end Session
end HubConsole
