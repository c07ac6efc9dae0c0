import HubConsole.Link

/-! # What a link takes

`Link.Takes P`: requests reach a link one after the other, and `P` holds of each one at the moment
when it does. -/

namespace HubConsole.Link

/-- From one link to another by requests, each of them permitted by the link that it reaches. -/
inductive Takes (P : Link → Request → Prop) : Link → List Request → Link → Prop
  | nil {l : Link} : Takes P l [] l
  | cons {l l' : Link} {r : Request} {rs : List Request} (permitted : P l r)
      (rest : Takes P (l.send r) rs l') : Takes P l (r :: rs) l'

variable {P Q : Link → Request → Prop} {l m n : Link} {r : Request} {rs qs : List Request}
  {hub k : HubId} {a : Address}

@[simp] theorem requests_send : (l.send r).requests = l.requests ++ [r] := by
  cases r <;> rfl

@[simp] theorem isIdle_send_disconnect : (l.send (.disconnect hub)).isIdle hub = true := by
  simp [isIdle, send, setState]

/-- To disconnect a hub does not touch the others. -/
theorem isIdle_send_disconnect_of_ne (h : k ≠ hub) :
    (l.send (.disconnect hub)).isIdle k = l.isIdle k := by
  simp [isIdle, send, setState, h]

/-- To connect a hub does not touch the others. -/
theorem isIdle_send_connect_of_ne (h : k ≠ hub) :
    (l.send (.connect hub a)).isIdle k = l.isIdle k := by
  simp [isIdle, send, setState, h]

namespace Takes

theorem single (h : P l r) : Takes P l [r] (l.send r) := .cons h .nil

theorem append (h : Takes P l rs m) (k : Takes P m qs n) : Takes P l (rs ++ qs) n := by
  induction h with
  | nil => exact k
  | cons permitted _ ih => exact .cons permitted (ih k)

theorem mono (h : Takes P l rs m) (hPQ : ∀ l r, P l r → Q l r) : Takes Q l rs m := by
  induction h with
  | nil => exact .nil
  | cons permitted _ ih => exact .cons (hPQ _ _ permitted) ih

/-- The requests are the new ones that the link knows of. -/
theorem requests_eq (h : Takes P l rs m) : m.requests = l.requests ++ rs := by
  induction h with
  | nil => simp
  | cons _ _ ih => rw [ih, requests_send, List.append_assoc, List.singleton_append]

theorem exists_of_mem (h : Takes P l rs m) (hr : r ∈ rs) : ∃ l, P l r := by
  induction h with
  | nil => simp at hr
  | @cons l _ _ _ permitted _ ih =>
    rcases List.mem_cons.1 hr with rfl | hr
    · exact ⟨l, permitted⟩
    · exact ih hr

end Takes
end HubConsole.Link
