import HubConsole.Proofs.Completion
import Mathlib.Data.List.Pairwise

/-! # Completing a name

A name that is typed in part is completed to the names of all users of the hub that go on from it
in some letter case (`completes_nicks`). Nobody is lost and nobody comes twice: the users are sorted
as they are, by the lower case of their names, and those of one lower case keep their order
(`SortedBy`). Repetitions go only when the lines are offered. -/

namespace HubConsole
open Text

/-! ## Order by keys -/

/-- The items in the order of their keys, those with the same key as they stood before. -/
structure SortedBy {α : Type} (key : α → String) (items out : List α) : Prop where
  perm : out.Perm items
  sorted : out.Pairwise fun a b => key a ≤ key b
  stable : ∀ k, out.filter (fun a => key a = k) = items.filter fun a => key a = k

theorem sortedBy_mergeSort {α : Type} (key : α → String) (items : List α) :
    SortedBy key items (items.mergeSort fun a b => key a ≤ key b) := by
  have htrans : ∀ a b c : α, decide (key a ≤ key b) = true → decide (key b ≤ key c) = true →
      decide (key a ≤ key c) = true := by
    simpa using fun a b c => String.le_trans
  have htotal : ∀ a b : α, (decide (key a ≤ key b) || decide (key b ≤ key a)) = true := by
    simpa using fun a b => String.le_total (key a) (key b)
  have hperm := List.mergeSort_perm items fun a b => key a ≤ key b
  refine ⟨hperm, by simpa using List.pairwise_mergeSort htrans htotal items, fun k => ?_⟩
  -- items with one key are in order as they stand, so sorting keeps them in their order
  have hone : (items.filter fun a => key a = k).Pairwise fun a b => decide (key a ≤ key b) = true :=
    List.pairwise_of_forall_mem_list fun a ha b hb => by
      have hkey : ∀ {a}, a ∈ (items.filter fun a => key a = k) → key a = k := fun h => by
        simpa using (List.mem_filter.1 h).2
      rw [hkey ha, hkey hb]
      exact decide_eq_true (String.le_refl k)
  have hsub := (List.sublist_mergeSort htrans htotal hone List.filter_sublist).filter
    fun a => decide (key a = k)
  rw [List.filter_filter] at hsub
  simp only [Bool.and_self] at hsub
  exact (hsub.eq_of_length (hperm.filter _).length_eq.symm).symm

/-! ## Names of users -/

namespace Session
open Completion
variable {s : Session} {hub : HubId}

/-- A text is cut after the last character that ends a name. -/
structure LastCut (text head typed : String) : Prop where
  append : text = head ++ typed
  head : ∀ c ∈ head.toList.getLast?, endsNick c = true
  typed : ∀ c ∈ typed.toList, endsNick c = false

/-- The users of a hub whose names go on from what is typed in some letter case. -/
def named (s : Session) (hub : HubId) (typed : String) : List User :=
  (s.link.users hub).filter fun u => startsWith (lowered u.name) (lowered typed)

theorem nicks_eq (s : Session) (hub : HubId) (typed : String) : s.nicks hub typed =
    ((s.named hub typed).mergeSort fun u v => lowered u.name ≤ lowered v.name).map (·.name) := by
  rw [nicks, named, List.filter_map]
  exact (List.map_mergeSort (f := User.name) fun _ _ _ _ => rfl).symm

/-- Each user whose name goes on from what is typed makes one completion, in the order of the names
in lower case. -/
theorem completeNick_eq (here : s.currentHub? = some hub) (args : String) :
    ∃ head typed users, LastCut args head typed ∧
      SortedBy (fun u => lowered u.name) (s.named hub typed) users ∧
      ∀ addressed, s.completeNick args addressed = users.map fun u =>
        if addressed = true ∧ head = "" then u.name ++ ": " else head ++ u.name := by
  refine ⟨.ofList (cutAfterLast endsNick args.toList).1,
    .ofList (cutAfterLast endsNick args.toList).2, _, ⟨?_, ?_, ?_⟩, sortedBy_mergeSort _ _,
    fun addressed => ?_⟩
  · rw [← String.ofList_append, cutAfterLast_append, String.ofList_toList]
  · intro c hc
    rw [String.toList_ofList] at hc
    exact of_mem_getLast?_cutAfterLast hc
  · intro c hc
    rw [String.toList_ofList] at hc
    exact not_of_mem_cutAfterLast hc
  · have hempty : String.ofList (cutAfterLast endsNick args.toList).1 = "" ↔
        (cutAfterLast endsNick args.toList).1.isEmpty = true := by
      rw [String.ofList_eq_empty_iff, List.isEmpty_iff]
    unfold completeNick
    rw [here]
    dsimp only
    rw [nicks_eq]
    split
    · next h =>
      rw [Bool.and_eq_true, ← hempty] at h
      rw [List.map_map]
      exact List.map_congr_left fun u _ => (if_pos h).symm
    · next h =>
      rw [Bool.and_eq_true, ← hempty] at h
      rw [prepend, List.map_map]
      exact List.map_congr_left fun u _ => (if_neg h).symm

/-- The name at the end of a text, after the last space, comma or colon, is completed to the names
of the users of the tab's hub that start with it in lower case. Each of these users makes one
completion, and nothing else does. They stand in the order of their names in lower case, and in the
order of the hub where that is the same. For commands that take a name they become lines of the
command, of which the first 20 are offered, without repetitions and without any that is as long as
what is typed. -/
theorem completes_nicks (here : s.currentHub? = some hub) (args : String) :
    ∃ head typed users, LastCut args head typed ∧
      SortedBy (fun u => lowered u.name)
        ((s.link.users hub).filter fun u => startsWith (lowered u.name) (lowered typed)) users ∧
      (∀ addressed, s.completeNick args addressed = users.map fun u =>
        if addressed = true ∧ head = "" then u.name ++ ": " else head ++ u.name) ∧
      ∀ name ∈ ["kick", "whois", "me", "grant"],
        let line := "/" ++ name ++ " " ++ args
        s.suggest line = ((users.map fun u => "/" ++ name ++ " " ++ (head ++ u.name)).filter
          fun w => byteLength w.toList ≠ byteLength line.toList).eraseDups.take 20 := by
  obtain ⟨head, typed, users, hcut, hsorted, hcomplete⟩ := completeNick_eq here args
  refine ⟨head, typed, users, hcut, hsorted, hcomplete, fun name hname => ?_⟩
  intro line
  have hplain : s.completeNick args false = users.map fun u => head ++ u.name := by
    simpa using hcomplete false
  obtain ⟨c, rfl, hc⟩ : ∃ c : Command, c.name = name ∧
      c.complete s args = s.completeNick args false := by
    simp only [List.mem_cons, List.not_mem_nil, or_false] at hname
    rcases hname with rfl | rfl | rfl | rfl
    · exact ⟨.kick, rfl, rfl⟩
    · exact ⟨.whois, rfl, rfl⟩
    · exact ⟨.me, rfl, rfl⟩
    · exact ⟨.grant, rfl, rfl⟩
  have hwords : candidates s line =
      users.map fun u => "/" ++ c.name ++ " " ++ (head ++ u.name) := by
    show candidates s (c.line args) = _
    rw [Command.candidates_line, hc, hplain, List.map_map]
    rfl
  rw [suggest, select_eq, hwords]
  congr 3
  funext w
  exact Bool.eq_iff_iff.2 (by simp [eligible])

/-- Letter case does not matter, and in a private chat the users of its hub are completed. -/
theorem completes_nicks_private :
    let users := [⟨1, "alice", 0, none, false⟩, ⟨2, "bob", 0, none, false⟩,
      ⟨3, "Albert", 0, none, false⟩]
    let s := (new (.empty "/") (Link.offline.setUsers 1 users)).focus (.chat 1 2 "bob")
    s.currentHub? = some 1 ∧
      (∃ head typed found, LastCut "hi,ALB" head typed ∧
        SortedBy (fun u => lowered u.name)
          (users.filter fun u => startsWith (lowered u.name) (lowered typed)) found ∧
        s.completeNick "hi,ALB" false = found.map fun u => head ++ u.name) ∧
      s.completeNick "hi,ALB" false = ["hi,Albert"] := by
  intro users s
  have here : s.currentHub? = some 1 := by decide
  have hfound : s.completeNick "hi,ALB" false = ["hi,Albert"] := by decide +kernel
  obtain ⟨head, typed, found, hcut, hsorted, hcomplete, -⟩ := completes_nicks here "hi,ALB"
  exact ⟨here, ⟨head, typed, found, hcut, hsorted, by simpa using hcomplete false⟩, hfound⟩

end Session
end HubConsole
