import Mathlib.Data.List.Basic

/-! Texts in which a mark starts an escape of two characters. -/
namespace Escapes

variable {α : Type} [DecidableEq α]

/-- What a text with escapes stands for; none where the mark starts no escape. -/
def decode (mark : α) (meaning : α → Option α) : List α → Option (List α)
  | [] => some []
  | c :: rest =>
    if c = mark then
      match rest with
      | [] => none
      | e :: rest => (meaning e).bind fun d => (decode mark meaning rest).map (d :: ·)
    else (decode mark meaning rest).map (c :: ·)

variable {mark : α} {meaning : α → Option α} {s t : List α}

theorem decode_eq_self (h : mark ∉ s) : decode mark meaning s = some s := by
  fun_induction decode mark meaning s with
  | case1 => rfl
  | case2 => simp at h
  | case3 => simp at h
  | case4 c rest hc ih => simp [ih (fun hr => h (by simp [hr]))]

/-- Every escape shortens the text. -/
theorem length_decode (h : decode mark meaning s = some t) :
    t.length ≤ s.length ∧ (mark ∈ s → t.length < s.length) := by
  fun_induction decode mark meaning s generalizing t with
  | case1 =>
    cases h
    simp
  | case2 => cases h
  | case3 e rest ih =>
    obtain ⟨d, -, h⟩ := Option.bind_eq_some_iff.mp h
    obtain ⟨u, hu, rfl⟩ := Option.map_eq_some_iff.mp h
    have := (ih hu).1
    simp only [List.length_cons]
    omega
  | case4 c rest hc ih =>
    obtain ⟨u, hu, rfl⟩ := Option.map_eq_some_iff.mp h
    obtain ⟨hle, hlt⟩ := ih hu
    refine ⟨Nat.succ_le_succ hle, fun hm => Nat.succ_lt_succ (hlt ?_)⟩
    exact (List.mem_cons.mp hm).resolve_left (Ne.symm hc)

end Escapes
