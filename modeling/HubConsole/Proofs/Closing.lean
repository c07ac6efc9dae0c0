import HubConsole.Proofs.TabOrder

/-! # Closing tabs

What is left when the current tab is closed (`closes_to_left`): the tab goes, a hub's own tab along
with the private chats of the hub (`Tab.closes`); the others stay in their order, and the one on the
left becomes the current one. The new position is counted as if only one tab had gone, however many
there are. It is the right one because none of them stands on the left of the tab that is closed
(`Tabs.Orderly.take_kept`). -/

namespace HubConsole

namespace Tab
variable {t u : Tab}

/-- Whether the second tab goes when the first one is closed. -/
def closes : Tab → Tab → Bool
  | hub id, chat id' _ _ => id == id'
  | t, u => t == u

theorem closes_iff : t.closes u = true ↔
    t = u ∨ ∃ id uid nick, t = .hub id ∧ u = .chat id uid nick := by
  cases t <;> cases u <;> simp [closes]
  exact eq_comm

/-- With a hub's own tab go all tabs of the hub. -/
theorem closes_hub (id : HubId) : (hub id).closes u = (u.hub? == some id) := by
  rw [Bool.eq_iff_iff]
  cases u with
  | main => simp [closes, hub?]
  | hub | chat =>
    simp only [closes, hub?, beq_iff_eq, Tab.hub.injEq, Option.some.injEq]
    exact eq_comm

theorem closes_chat {id : HubId} {uid : UserId} {nick : String} :
    (chat id uid nick).closes u = (u == chat id uid nick) := Bool.beq_comm

end Tab

namespace Tabs
variable {ts : Tabs} {t u : Tab}

/-- The tabs other than those that go with the current one. -/
def others (ts : Tabs) : List Tab := ts.all.filter fun u => !ts.current.closes u

/-- Where all tabs on the left of the current one are kept, the nearest one becomes current. -/
theorem keep_take_append (hpos : 0 < ts.position) (hlt : ts.position < ts.all.length)
    (rest : List Tab) :
    let us := ts.keep (ts.all.take ts.position ++ rest)
    us.position = ts.position - 1 ∧ us.all[us.position]? = ts.all[ts.position - 1]? := by
  intro us
  have hlen : (ts.all.take ts.position).length = ts.position :=
    List.length_take_of_le (Nat.le_of_lt hlt)
  have hposition : us.position = ts.position - 1 := by
    show min (ts.position - 1) ((ts.all.take ts.position ++ rest).length - 1) = ts.position - 1
    rw [List.length_append, hlen]
    omega
  refine ⟨hposition, ?_⟩
  show (ts.all.take ts.position ++ rest)[us.position]? = _
  rw [hposition, List.getElem?_append_left (by omega), List.getElem?_take_of_lt (by omega)]

namespace Orderly

/-- Private chats stand to the right of their hub's own tab, and no tab is there twice. -/
theorem not_closes_of_lt (h : ts.Orderly) {i : Nat} (hi : i < ts.position)
    (hu : ts.all[i]? = some u) : ts.current.closes u = false := by
  -- no tab before the position is the current one
  have hbefore : ∀ j < ts.position, ts.all[j]? ≠ some ts.current := by
    intro j hj heq
    have hjlt : j < ts.all.length := Nat.lt_trans hj h.position
    have : j = ts.position :=
      (List.getElem?_inj hjlt h.distinct).1 (heq.trans h.getElem?_current.symm)
    omega
  refine Bool.eq_false_iff.2 fun hcloses => ?_
  rcases Tab.closes_iff.1 hcloses with hcur | ⟨hub, uid, nick, hcur, rfl⟩
  · exact hbefore i hi (hcur ▸ hu)
  · obtain ⟨j, hj, hhub⟩ := h.hub_before hu
    exact hbefore j (Nat.lt_trans hj hi) (hcur ▸ hhub)

theorem take_kept (h : ts.Orderly) : ts.others = ts.all.take ts.position ++
    (ts.all.drop ts.position).filter fun u => !ts.current.closes u := by
  have hleft : (ts.all.take ts.position).filter (fun u => !ts.current.closes u) =
      ts.all.take ts.position := by
    refine List.filter_eq_self.2 fun u hu => ?_
    obtain ⟨i, hi, rfl⟩ := List.mem_take_iff_getElem.1 hu
    have hget : ts.all[i]? = some ts.all[i] := List.getElem?_eq_getElem _
    rw [h.not_closes_of_lt (by omega) hget]
    rfl
  rw [others]
  nth_rewrite 1 [← List.take_append_drop ts.position ts.all]
  rw [List.filter_append, hleft]

theorem close?_eq (h : ts.Orderly) (hcur : ts.current ≠ .main) :
    ts.close? = some (ts.keep ts.others, ts.current) := by
  unfold close?
  split
  · next hmain => exact absurd hmain hcur
  · next hub hhub =>
    have hothers : ts.others = ts.all.filter fun t => t.hub? != some hub := by
      simp only [others, hhub, Tab.closes_hub, bne]
    rw [hothers, hhub]
  · next hub uid nick hchat =>
    have hothers : ts.others = ts.all.filter (· != ts.current) := by
      simp only [others, hchat, Tab.closes_chat, bne]
    rw [h.eraseIdx_position, ← hothers, hchat]

/-- A hub's own tab does not go without the private chats of the hub. -/
theorem keep_others (h : ts.Orderly) (hcur : ts.current ≠ .main) : (ts.keep ts.others).Orderly := by
  have hkeep : ∀ {u}, (!ts.current.closes u) = true ↔ ¬ (ts.current = u ∨
      ∃ id uid nick, ts.current = .hub id ∧ u = .chat id uid nick) := by
    intro u
    rw [Bool.not_eq_true', Bool.eq_false_iff, Ne, Tab.closes_iff]
  refine h.keep_filter (hkeep.2 ?_) fun hub uid nick hchat => hkeep.2 ?_
  · rintro (hmain | ⟨_, _, _, -, hne⟩)
    · exact hcur hmain
    · cases hne
  · rintro (hhub | ⟨_, _, _, -, hne⟩)
    · exact hkeep.1 hchat (.inr ⟨hub, uid, nick, hhub, rfl⟩)
    · cases hne

/-- The main tab is the first one and there once. -/
theorem current_ne_main (h : ts.Orderly) (hpos : 0 < ts.position) : ts.current ≠ .main := by
  intro hmain
  have hfirst : ts.all[0]? = some .main := by rw [← List.head?_eq_getElem?, h.main]
  have hzero : 0 = ts.position := (List.getElem?_inj (Nat.zero_lt_of_lt h.position) h.distinct).1
    (hfirst.trans (hmain ▸ h.getElem?_current).symm)
  omega

end Orderly
end Tabs

namespace Session

theorem tabs_close {s : Session} {us : Tabs} {t : Tab} (h : s.tabs.close? = some (us, t)) :
    (s.dispatch "/close").tabs = us := by
  have hline : Command.Line.parse? "/close" = some ⟨Command.close.name, ""⟩ := by decide
  have hdispatch : s.dispatch "/close" = s.close := dispatch_of_parse? hline
  rw [hdispatch]
  unfold close
  cases hcur : s.tabs.current with
  | main => simp [Tabs.close?, hcur] at h
  | hub hub =>
    obtain ⟨link, heq⟩ := hangUp_eq s hub
    simp only [heq, h]
  | chat => simp only [h]

/-- All through a run, to close a tab that is not the first one is to close that tab and, if it is a
hub's own, the private chats of the hub: the others stay in their order, and the tab on the left of
it becomes the current one. -/
theorem closes_to_left {store : Store} {link : Link} {es : List Event}
    (position : 0 < ((new store link).after es).tabs.position) :
    let s := (new store link).after es
    ∃ us, s.tabs.close? = some (us, s.tabs.current) ∧ (s.dispatch "/close").tabs = us ∧
      us.all = s.tabs.all.filter (fun u => !s.tabs.current.closes u) ∧
      us.position = s.tabs.position - 1 ∧ us.all[us.position]? = some us.current ∧
      s.tabs.all[s.tabs.position - 1]? = some us.current := by
  intro s
  have h : s.tabs.Orderly := orderly_after store link es
  have hcur : s.tabs.current ≠ .main := h.current_ne_main position
  have hclose := h.close?_eq hcur
  obtain ⟨hposition, hleft⟩ := Tabs.keep_take_append position h.position
    ((s.tabs.all.drop s.tabs.position).filter fun u => !s.tabs.current.closes u)
  rw [← h.take_kept] at hposition hleft
  have hcurrent := (h.keep_others hcur).getElem?_current
  exact ⟨_, hclose, tabs_close hclose, rfl, hposition, hcurrent, hleft.symm.trans hcurrent⟩

/-- The second hub is closed: its chat goes, and the chat of the first one stays. -/
theorem closes_to_left_hub :
    let es := [.act (.line "/open -n a"), .act (.line "/open -n b"),
      .world (fun _ => .connected) (fun _ => [⟨7, "x", 0, none, false⟩]) (fun _ => .connected),
      .act (.line "/msg x"), .act (.line "/open a"), .act (.line "/msg x"), .act (.line "/open b")]
    let ts := fun es => ((new (.empty "/") .offline).after es).tabs
    ts es = ⟨[.main, .hub 1, .hub 2, .chat 2 7 "x", .chat 1 7 "x"], 2⟩ ∧ 0 < (ts es).position ∧
      ∃ us, (ts es).close? = some (us, .hub 2) ∧ us.all = [.main, .hub 1, .chat 1 7 "x"] ∧
        us.current = .hub 1 := by
  intro es ts
  have htabs : ts es = ⟨[.main, .hub 1, .hub 2, .chat 2 7 "x", .chat 1 7 "x"], 2⟩ := by
    decide +kernel
  have hposition : 0 < (ts es).position := by
    rw [htabs]
    decide
  obtain ⟨us, hclose, -, hall, -, -, hleft⟩ := @closes_to_left (.empty "/") .offline es hposition
  change (ts es).close? = some (us, (ts es).current) at hclose
  change us.all = (ts es).all.filter (fun u => !(ts es).current.closes u) at hall
  change (ts es).all[(ts es).position - 1]? = some us.current at hleft
  rw [htabs] at hclose hall hleft
  refine ⟨htabs, hposition, us, ?_, hall, (Option.some.inj hleft).symm⟩
  rw [htabs]
  exact hclose

end Session
end HubConsole
