import HubConsole.Proofs.Completion
import HubConsole.Text.LowerCase

/-! # Completing a chat line

A line is a chat message if its first character that is not blank is there and is no slash
(`parse?_eq_chat_iff`). Letter case has no part in that (`isChat_lower`), so a name that is offered
for the start of a message keeps the message one. Where nothing is typed yet, any name is offered,
and what it starts with decides (`suggest_chat`). -/

namespace HubConsole
open Text

namespace Text
variable {c : Char} {a b cs : List Char}

/-- A line of these characters is a chat message. -/
def isChat (cs : List Char) : Bool := (trimStart cs).head?.any (· != '/')

theorem isChat_append : isChat (a ++ b) = (isChat a || (trimStart a).isEmpty && isChat b) := by
  unfold isChat trimStart
  rw [List.dropWhile_append]
  cases h : a.dropWhile isBlank <;> simp

theorem isChat_of_isEmpty (h : (trimStart a).isEmpty) : isChat (a ++ b) = isChat b := by
  rw [isChat_append, h, isChat, List.isEmpty_iff.1 h]
  rfl

/-- The characters that matter to where a chat message begins: the blank ones and the slash. -/
def isLead (c : Char) : Bool := isBlank c || c == '/'

theorem isChat_cons_of_not_isLead (h : isLead c = false) : isChat (c :: cs) = true := by
  simp only [isLead, Bool.or_eq_false_iff, beq_eq_false_iff_ne] at h
  simp [isChat, trimStart, h.1, h.2]

/-- The code points of the characters that matter to where a message begins. -/
def leadRows : List (Nat × Nat) := [
  (9, 13), (0x20, 0x20), (0x2F, 0x2F), (0x85, 0x85), (0xA0, 0xA0), (0x1680, 0x1680),
  (0x2000, 0x200A), (0x2028, 0x2029), (0x202F, 0x202F), (0x205F, 0x205F), (0x3000, 0x3000)]

/-- A character between the rows does not matter. -/
theorem isLead_eq_false (h : ∀ l ∈ leadRows, c.toNat < l.1 ∨ l.2 < c.toNat) : isLead c = false := by
  simp only [leadRows, List.forall_mem_cons, List.not_mem_nil, false_imp_iff, forall_const] at h
  have hslash : c ≠ '/' := by
    rintro rfl
    exact absurd h (by decide)
  have hblank : isBlank c = false := by
    simp only [isBlank, Bool.or_eq_false_iff, Bool.and_eq_false_iff, decide_eq_false_iff_not,
      beq_eq_false_iff_ne]
    omega
  simp [isLead, hblank, hslash]

/-- A number that is no code point stands for the first one. -/
theorem toNat_ofNat_cases (n : Nat) : (Char.ofNat n).toNat = n ∨ (Char.ofNat n).toNat = 0 := by
  rw [Char.ofNat]
  by_cases h : n.isValidChar
  · rw [dif_pos h]
    exact .inl rfl
  · rw [dif_neg h]
    exact .inr rfl

/-- Neither what has another lower case nor what is one is blank or a slash. -/
theorem lowerRows_apart : ∀ r ∈ lowerRows, ∀ l ∈ leadRows, (r.2.1 < l.1 ∨ l.2 < r.1) ∧
    (r.2.2.2 + (r.2.1 - r.1) < l.1 ∨ l.2 < r.2.2.2) := by
  decide +kernel

/-- A character that has another lower case is none that matters to where a message begins, and
neither is its lower case. -/
theorem lowerChar_cases (c : Char) : lowerChar c = c ∨
    isLead c = false ∧ isLead (lowerChar c) = false := by
  unfold lowerChar
  dsimp only
  split
  · next r hfind =>
    have hapart := lowerRows_apart r (List.mem_of_find?_eq_some hfind)
    have hrow := List.find?_some hfind
    simp only [Bool.and_eq_true, decide_eq_true_eq] at hrow
    refine .inr ⟨isLead_eq_false fun l hl => ?_, isLead_eq_false fun l hl => ?_⟩
    · have := (hapart l hl).1
      omega
    · have hpos : ∀ l ∈ leadRows, 0 < l.1 := by decide
      have := hpos l hl
      have := (hapart l hl).2
      have := toNat_ofNat_cases (c.toNat - r.1 + r.2.2.2)
      omega
  · exact .inl rfl

theorem isChat_lowerFrom (before : List Char) : isChat (lowerFrom before cs) = isChat cs := by
  induction cs generalizing before with
  | nil => rfl
  | cons c cs ih =>
    unfold lowerFrom
    dsimp only
    split
    · next hsigma =>
      subst hsigma
      rw [isChat_cons_of_not_isLead (c := 'Σ') (by decide)]
      split
      · exact isChat_cons_of_not_isLead (by decide)
      · exact isChat_cons_of_not_isLead (by decide)
    · split
      · next hdotted =>
        subst hdotted
        rw [isChat_cons_of_not_isLead (c := 'İ') (by decide)]
        exact isChat_cons_of_not_isLead (by decide)
      · rcases lowerChar_cases c with heq | ⟨hc, hlower⟩
        · rw [heq, isChat_append, ih, ← isChat_append, List.singleton_append]
        · rw [isChat_cons_of_not_isLead hc]
          exact isChat_cons_of_not_isLead hlower

@[simp] theorem isChat_lower (cs : List Char) : isChat (lower cs) = isChat cs :=
  isChat_lowerFrom []

/-- What starts like a chat message in any letter case is one. -/
theorem isChat_of_startsWith {s lead : String} (h : startsWith (lowered s) (lowered lead) = true)
    (hlead : isChat lead.toList = true) : isChat s.toList = true := by
  unfold startsWith at h
  obtain ⟨rest, hrest⟩ := List.isPrefixOf_iff_prefix.1 h
  rw [toList_lowered, toList_lowered] at hrest
  rw [← isChat_lower, ← hrest, isChat_append, isChat_lower, hlead, Bool.true_or]

end Text

namespace Command.Line

theorem length_splitName_le (cs : List Char) : (splitName cs).2.length ≤ cs.length := by
  unfold splitName
  cases h : cutFirst? ' ' cs with
  | none => simp
  | some p => simp [eq_of_cutFirst? h]; omega

theorem length_trimStart_le (cs : List Char) : (trimStart cs).length ≤ cs.length :=
  (List.dropWhile_suffix isBlank).length_le

/-- The lines that are chat messages as they stand. -/
theorem parse?_eq_chat_iff {line : String} :
    parse? line = some ⟨chatName, line⟩ ↔ isChat line.toList = true := by
  unfold parse? isChat
  split
  · next h => simp [h]
  · next rest h =>
    have hne : make (splitName rest).1 (splitName rest).2 ≠ ⟨chatName, line⟩ := by
      intro heq
      have hname : String.ofList (splitName rest).1 = chatName := congrArg Line.name heq
      have hargs := congrArg (List.length <| String.toList <| Line.args ·) heq
      simp only [make, hname, beq_self_eq_true, if_true, String.toList_ofList] at hargs
      -- what follows the slash is shorter than the line
      have hsplit := length_splitName_le rest
      have htrim := length_trimStart_le line.toList
      rw [h, List.length_cons] at htrim
      omega
    simpa [h] using hne
  · next c rest hc h =>
    have hslash : c ≠ '/' := fun heq => hc heq
    simp [h, hslash]

end Command.Line

namespace Session
open Completion
variable {s : Session} {typed w : String}

/-- A completion of a chat line has the name of a user in the place of the last name typed. -/
theorem mem_completeNick (h : w ∈ s.completeNick typed true) :
    ∃ hub, s.currentHub? = some hub ∧ ∃ u ∈ s.link.users hub, ∃ lead last : List Char,
      typed.toList = lead ++ last ∧ startsWith (lowered u.name) (lowered (.ofList last)) = true ∧
        (lead = [] ∧ w = u.name ++ ": " ∨ w = .ofList lead ++ u.name) := by
  unfold completeNick at h
  cases hhub : s.currentHub? with
  | none => simp [hhub] at h
  | some hub =>
    rw [hhub] at h
    dsimp only at h
    have htyped := cutAfterLast_append endsNick typed.toList
    have huser : ∀ {name last}, name ∈ s.nicks hub last →
        ∃ u ∈ s.link.users hub, startsWith (lowered u.name) (lowered last) ∧ u.name = name := by
      intro name last hname
      rw [nicks, List.mem_mergeSort, List.mem_filter, List.mem_map] at hname
      obtain ⟨⟨u, hu, rfl⟩, hstarts⟩ := hname
      exact ⟨u, hu, hstarts, rfl⟩
    refine ⟨hub, rfl, ?_⟩
    split at h
    · next hempty =>
      obtain ⟨name, hname, rfl⟩ := List.mem_map.1 h
      obtain ⟨u, hu, hstarts, rfl⟩ := huser hname
      refine ⟨u, hu, _, _, htyped.symm, hstarts, .inl ⟨?_, rfl⟩⟩
      simpa using hempty
    · obtain ⟨name, hname, rfl⟩ := List.mem_map.1 h
      obtain ⟨u, hu, hstarts, rfl⟩ := huser hname
      exact ⟨u, hu, _, _, htyped.symm, hstarts, .inr rfl⟩

/-- A completion of a line that is no command is a chat message as it stands, if more than blanks are
typed. If not, any name may be offered, perhaps with a colon, after what is typed; and that is a
chat message iff the name begins as one. -/
theorem suggest_chat (chat : (trimStart typed.toList).head? ≠ some '/')
    (offered : w ∈ s.suggest typed) :
    (trimStart typed.toList ≠ [] → Command.Line.parse? w = some ⟨Command.chatName, w⟩) ∧
    (trimStart typed.toList = [] → ∃ hub, s.currentHub? = some hub ∧ ∃ u ∈ s.link.users hub,
      ∃ lead tail : String, w = lead ++ u.name ++ tail ∧ trimStart lead.toList = [] ∧
        (tail = "" ∨ lead = "" ∧ tail = ": ") ∧
        (Command.Line.parse? w = some ⟨Command.chatName, w⟩ ↔
          isChat (u.name ++ tail).toList = true)) := by
  have hhead : typed.toList.head? ≠ some '/' := by
    intro h
    obtain ⟨rest, hrest⟩ := List.head?_eq_some_iff.1 h
    exact chat (by rw [hrest]; rfl)
  have hw := mem_of_mem_select offered
  rw [candidates_chat hhead] at hw
  obtain ⟨hub, hhub, u, hu, lead, last, htyped, hstarts, hmade⟩ := mem_completeNick hw
  refine ⟨fun hsome => ?_, fun hnone => ⟨hub, hhub, u, hu, ?_⟩⟩
  · have hchat : isChat typed.toList = true := by
      obtain ⟨c, rest, hcons⟩ := List.exists_cons_of_ne_nil hsome
      rw [hcons] at chat
      simpa [isChat, hcons] using chat
    rw [Command.Line.parse?_eq_chat_iff]
    rw [htyped] at hchat
    have hname : isChat last = true → isChat u.name.toList = true := fun h =>
      isChat_of_startsWith hstarts (by simpa using h)
    rcases hmade with ⟨rfl, rfl⟩ | rfl
    · rw [String.toList_append, isChat_append, hname hchat, Bool.true_or]
    · rw [String.toList_append, String.toList_ofList, isChat_append]
      simp only [isChat_append, Bool.or_eq_true, Bool.and_eq_true] at hchat ⊢
      exact hchat.imp_right fun h => ⟨h.1, hname h.2⟩
  · have hlead : trimStart lead = [] := by
      rw [htyped] at hnone
      refine List.dropWhile_eq_nil_iff.2 fun c hc => ?_
      exact List.dropWhile_eq_nil_iff.1 hnone c (List.mem_append_left _ hc)
    rcases hmade with ⟨rfl, rfl⟩ | rfl
    · exact ⟨"", ": ", by simp, rfl, .inr ⟨rfl, rfl⟩, Command.Line.parse?_eq_chat_iff⟩
    · refine ⟨.ofList lead, "", by simp, by simpa using hlead, .inl rfl, ?_⟩
      rw [Command.Line.parse?_eq_chat_iff, String.toList_append, String.toList_ofList,
        isChat_of_isEmpty (by rw [hlead]; rfl), String.append_empty]

/-- A user whose name starts with a slash is no danger to a message that has begun. -/
theorem suggest_chat_slash :
    let s := (new (.empty "/") (Link.offline.setUsers 1 [⟨1, "/quit", 0, none, false⟩])).focus
      (.hub 1)
    (trimStart "hi /q".toList).head? ≠ some '/' ∧ "hi /quit" ∈ s.suggest "hi /q" ∧
      Command.Line.parse? "hi /quit" = some ⟨Command.chatName, "hi /quit"⟩ := by
  intro s
  have hchat : (trimStart "hi /q".toList).head? ≠ some '/' := by decide
  have hoffered : "hi /quit" ∈ s.suggest "hi /q" := by decide +kernel
  exact ⟨hchat, hoffered, (suggest_chat hchat hoffered).1 (by decide)⟩

/-- It is not so that a completion of a line that is no command is always a chat message. -/
theorem not_suggest_chat : ¬ ∀ (s : Session) (typed w : String),
    (trimStart typed.toList).head? ≠ some '/' → w ∈ s.suggest typed →
      Command.Line.parse? w = some ⟨Command.chatName, w⟩ := by
  intro h
  let s := (new (.empty "/") (Link.offline.setUsers 1 [⟨1, "/quit", 0, none, false⟩])).focus
    (.hub 1)
  have hoffered : " /quit" ∈ s.suggest " " := by decide +kernel
  exact absurd (h s " " " /quit" (by decide) hoffered) (by decide)

end Session
end HubConsole
