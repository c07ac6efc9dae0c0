import HubConsole.Command.Completion
import HubConsole.Proofs.Line
import HubConsole.Proofs.Repetition

/-! # What is offered as a completion

The completions of a line are chosen from its candidates: those of the command that the line names
with a blank after it (`mem_suggest_command`), or those of `say` for a line that starts with no
slash (`candidates_chat`). -/

namespace HubConsole
open Text

namespace Text

/-- The cut, seen from the end of the text. -/
theorem cutAfterLast_eq (p : Char → Bool) (cs : List Char) : cutAfterLast p cs =
    ((cs.reverse.dropWhile fun c => !p c).reverse,
      (cs.reverse.takeWhile fun c => !p c).reverse) := by
  have hlength := congrArg List.length
    (List.takeWhile_append_dropWhile (p := fun c => !p c) (l := cs.reverse))
  rw [List.length_append, List.length_reverse] at hlength
  have hcs : cs = (cs.reverse.dropWhile fun c => !p c).reverse ++
      (cs.reverse.takeWhile fun c => !p c).reverse := by
    rw [← List.reverse_append, List.takeWhile_append_dropWhile, List.reverse_reverse]
  have htake := congrArg (List.take (cs.reverse.dropWhile fun c => !p c).length) hcs
  rw [List.take_left' List.length_reverse] at htake
  rw [cutAfterLast, ← htake, ← hlength, Nat.add_sub_cancel_left]

theorem cutAfterLast_append (p : Char → Bool) (cs : List Char) :
    (cutAfterLast p cs).1 ++ (cutAfterLast p cs).2 = cs := by
  rw [cutAfterLast_eq, ← List.reverse_append, List.takeWhile_append_dropWhile, List.reverse_reverse]

theorem cutAfterLast_of_forall {p : Char → Bool} {cs : List Char} (h : ∀ c ∈ cs, p c = false) :
    cutAfterLast p cs = ([], cs) := by
  have hall : cs.reverse.takeWhile (fun c => !p c) = cs.reverse :=
    List.takeWhile_eq_self_iff.2 fun c hc => by simp [h c (List.mem_reverse.1 hc)]
  simp [cutAfterLast, hall]

theorem cutAfterLast_append_cons {p : Char → Bool} {c : Char} {a b : List Char} (hc : p c = true)
    (hb : ∀ x ∈ b, p x = false) : cutAfterLast p (a ++ c :: b) = (a ++ [c], b) := by
  have hrun : ∀ x ∈ b.reverse, (!p x) = true := fun x hx => by simp [hb x (List.mem_reverse.1 hx)]
  have hstop : ∀ x ∈ (c :: a.reverse).head?, (!p x) = false := by simp [hc]
  have hreverse : (a ++ c :: b).reverse = b.reverse ++ c :: a.reverse := by simp
  rw [cutAfterLast_eq, hreverse, dropWhile_run hrun hstop, takeWhile_run hrun hstop]
  simp

theorem of_mem_getLast?_cutAfterLast {p : Char → Bool} {cs : List Char} {c : Char}
    (h : c ∈ (cutAfterLast p cs).1.getLast?) : p c = true := by
  rw [cutAfterLast_eq, List.getLast?_reverse] at h
  have hnot := List.head?_dropWhile_not (fun c => !p c) cs.reverse
  rw [Option.mem_def.1 h] at hnot
  simpa using hnot

theorem not_of_mem_cutAfterLast {p : Char → Bool} {cs : List Char} {c : Char}
    (h : c ∈ (cutAfterLast p cs).2) : p c = false := by
  rw [cutAfterLast_eq, List.mem_reverse] at h
  simpa using List.all_eq_true.1 List.all_takeWhile c h

end Text

namespace Completion
variable {s : Session} {typed w : String} {words : List String}

/-- What a list of words is gathered into has no others. -/
theorem mem_of_mem_foldl {add : List String → String → List String}
    (hadd : ∀ out word, w ∈ add out word → w ∈ out ∨ w = word) (out : List String)
    (h : w ∈ words.foldl add out) : w ∈ out ∨ w ∈ words := by
  induction words generalizing out with
  | nil => exact .inl h
  | cons word words ih =>
    rcases ih _ h with h | h
    · rcases hadd out word h with h | rfl
      · exact .inl h
      · exact .inr List.mem_cons_self
    · exact .inr (List.mem_cons_of_mem _ h)

/-- Whether a word may be chosen: not if it is as long as what was typed. -/
def eligible (typed word : String) : Bool := byteLength word.toList != byteLength typed.toList

theorem offer_of_not_eligible {out : List String} (h : eligible typed w = false) :
    offer typed out w = out := by
  rw [eligible, bne_eq_false_iff_eq] at h
  rw [offer, if_pos (.inr (.inl h))]

theorem offer_of_eligible {out : List String} (h : eligible typed w = true) :
    offer typed out w = if out.length = limit ∨ w ∈ out then out else out ++ [w] := by
  rw [eligible, bne_iff_ne] at h
  simp only [offer, h, false_or]

/-- What is chosen: the first ones of the eligible words, each one once. -/
theorem select_eq (typed : String) (words : List String) :
    select typed words = ((words.filter (eligible typed)).eraseDups).take limit := by
  induction words using List.reverseRecOn with
  | nil => rfl
  | append_singleton words w ih =>
    have hstep : select typed (words ++ [w]) = offer typed (select typed words) w := by
      rw [select, List.foldl_append]
      rfl
    rw [hstep, ih, List.filter_append, List.eraseDups_append]
    generalize words.filter (eligible typed) = kept
    cases hw : eligible typed w with
    | false => simp [offer_of_not_eligible hw, hw, List.removeAll]
    | true =>
      rw [offer_of_eligible hw, List.filter_singleton, hw, cond_true]
      by_cases hroom : limit ≤ kept.eraseDups.length
      · rw [if_pos (.inl (by rw [List.length_take, Nat.min_eq_left hroom])),
          List.take_append_of_le_length hroom]
      · have hall : kept.eraseDups.take limit = kept.eraseDups :=
          List.take_of_length_le (by omega)
        rw [hall]
        by_cases hkept : w ∈ kept
        · rw [if_pos (.inr (List.mem_eraseDups.2 hkept))]
          simp [List.removeAll, hkept, hall]
        · rw [if_neg (by rw [List.mem_eraseDups]; exact not_or.2 ⟨by omega, hkept⟩)]
          have hnew : ([w].removeAll kept).eraseDups = [w] := by
            simp [List.removeAll, hkept, List.eraseDups_cons]
          have hlast : (kept.eraseDups ++ [w]).length ≤ limit := by
            rw [List.length_append, List.length_singleton]
            omega
          rw [hnew, List.take_of_length_le hlast]

theorem select_sublist (typed : String) (words : List String) :
    (select typed words).Sublist words := by
  rw [select_eq]
  exact (List.take_sublist _ _).trans ((eraseDups_sublist _).trans List.filter_sublist)

/-- Nothing is offered that is no candidate. -/
theorem mem_of_mem_select (h : w ∈ select typed words) : w ∈ words :=
  (select_sublist typed words).subset h

theorem candidates_chat (h : typed.toList.head? ≠ some '/') :
    candidates s typed = s.completeNick typed true := by
  unfold candidates
  split
  · next rest heq => exact absurd (by rw [heq]; rfl) h
  · rfl

end Completion

namespace Command
variable {c : Command} {s : Session} {args w : String}

/-- The line of a command with its arguments. -/
def line (c : Command) (args : String) : String := "/" ++ c.name ++ " " ++ args

theorem blank_not_mem_name (c : Command) : ' ' ∉ c.name.toList := by
  cases c <;> first | decide | (rename_i t; cases t <;> decide)

theorem parse?_line (h : c ≠ .say) : Line.parse? (c.line args) = some ⟨c.name, trimmed args⟩ := by
  have hname : c.name ≠ chatName := fun heq => h (name_inj.1 heq)
  rw [line, Line.parse?_named (blank_not_mem_name c)]
  simp [Line.make, hname, trimmed]

theorem dispatch_line (h : c ≠ .say) :
    s.dispatch (c.line args) = s.settle (c.run s (trimmed args)) :=
  Session.dispatch_of_parse? (parse?_line h)

/-- The candidates for a line with arguments are lines of its command. -/
theorem candidates_line (c : Command) (s : Session) (args : String) :
    Completion.candidates s (c.line args) = (c.complete s args).map c.line := by
  unfold Completion.candidates
  rw [line, Line.toList_named]
  simp only [cutFirst?_append (blank_not_mem_name c), String.ofList_toList, ofName?_name]
  rfl

theorem candidates_unknown {name : String} (h : ' ' ∉ name.toList) (hname : ofName? name = none) :
    Completion.candidates s ("/" ++ name ++ " " ++ args) = [] := by
  unfold Completion.candidates
  rw [Line.toList_named]
  simp only [cutFirst?_append h, String.ofList_toList, hname]

/-- What is offered for the arguments of a command stands for all of them. -/
theorem mem_suggest_line (h : w ∈ s.suggest (c.line args)) :
    ∃ text ∈ c.complete s args, w = c.line text := by
  have hmem := Completion.mem_of_mem_select h
  rw [candidates_line] at hmem
  obtain ⟨text, htext, rfl⟩ := List.mem_map.1 hmem
  exact ⟨text, htext, rfl⟩

end Command
end HubConsole
