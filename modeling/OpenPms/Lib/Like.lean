import Mathlib.Data.List.Infix

/-!
SQL LIKE patterns: `%` stands for any characters, `_` for one, and a backslash takes away the
meaning of the character after it. A text that is searched for between two `%` is found in
every text that contains it, unless it has a backslash.
-/
namespace Like

inductive Token where
  | run
  | one
  | char (c : Char)
  deriving DecidableEq

/-- A backslash at the end stands for itself. -/
def tokens : List Char → List Token
  | [] => []
  | '\\' :: c :: rest => .char c :: tokens rest
  | '%' :: rest => .run :: tokens rest
  | '_' :: rest => .one :: tokens rest
  | c :: rest => .char c :: tokens rest

inductive Matches : List Token → List Char → Prop
  | nil : Matches [] []
  | run {ts : List Token} {s : List Char} (skipped : List Char) (h : Matches ts s) :
      Matches (.run :: ts) (skipped ++ s)
  | one {ts : List Token} {s : List Char} (c : Char) (h : Matches ts s) :
      Matches (.one :: ts) (c :: s)
  | char {ts : List Token} {s : List Char} (c : Char) (h : Matches ts s) :
      Matches (.char c :: ts) (c :: s)

def isMatch : List Token → List Char → Bool
  | [], s => s.isEmpty
  | .run :: ts, s => s.tails.any (isMatch ts)
  | .one :: _, [] => false
  | .one :: ts, _ :: s => isMatch ts s
  | .char _ :: _, [] => false
  | .char c :: ts, d :: s => c = d && isMatch ts s

theorem isMatch_iff {ts : List Token} {s : List Char} : isMatch ts s = true ↔ Matches ts s := by
  induction ts generalizing s with
  | nil =>
    rw [isMatch, List.isEmpty_iff]
    constructor
    · rintro rfl
      exact .nil
    · intro h
      cases h
      rfl
  | cons t ts ih =>
    cases t with
    | run =>
      rw [isMatch, List.any_eq_true]
      constructor
      · intro ⟨left, hleft, hmatch⟩
        obtain ⟨skipped, rfl⟩ := (List.mem_tails _ _).mp hleft
        exact .run skipped (ih.mp hmatch)
      · intro h
        cases h with
        | run skipped h => exact ⟨_, (List.mem_tails _ _).mpr ⟨skipped, rfl⟩, ih.mpr h⟩
    | one =>
      cases s with
      | nil =>
        refine ⟨fun h => by simp [isMatch] at h, fun h => ?_⟩
        cases h
      | cons c s =>
        rw [isMatch, ih]
        refine ⟨.one c, fun h => ?_⟩
        cases h with
        | one _ h => exact h
    | char d =>
      cases s with
      | nil =>
        refine ⟨fun h => by simp [isMatch] at h, fun h => ?_⟩
        cases h
      | cons c s =>
        rw [isMatch, Bool.and_eq_true, decide_eq_true_eq, ih]
        constructor
        · rintro ⟨rfl, h⟩
          exact .char d h
        · intro h
          cases h with
          | char _ h => exact ⟨rfl, h⟩

theorem Matches.append {ts us : List Token} {s u : List Char} (h : Matches ts s)
    (h' : Matches us u) : Matches (ts ++ us) (s ++ u) := by
  induction h with
  | nil => exact h'
  | run skipped _ ih =>
    rw [List.append_assoc]
    exact .run skipped ih
  | one c _ ih => exact .one c ih
  | char c _ ih => exact .char c ih

section Plain
variable {c : Char} {s rest : List Char}

/-- The token of a character that is not a backslash. -/
def token (c : Char) : Token := if c = '%' then .run else if c = '_' then .one else .char c

theorem tokens_cons (h : c ≠ '\\') : tokens (c :: rest) = token c :: tokens rest := by
  unfold token
  split
  · next hrun =>
    rw [hrun]
    rfl
  · split
    · next hone =>
      rw [hone]
      rfl
    · simp [tokens, h]

theorem tokens_append (h : '\\' ∉ s) : tokens (s ++ rest) = tokens s ++ tokens rest := by
  induction s with
  | nil => rfl
  | cons c s ih =>
    obtain ⟨hc, hs⟩ := not_or.mp (mt List.mem_cons.mpr h)
    rw [List.cons_append, tokens_cons (Ne.symm hc), tokens_cons (Ne.symm hc), ih hs,
      List.cons_append]

/-- Every character stands for itself, among others. -/
theorem matches_tokens (h : '\\' ∉ s) : Matches (tokens s) s := by
  induction s with
  | nil => exact .nil
  | cons c s ih =>
    obtain ⟨hc, hs⟩ := not_or.mp (mt List.mem_cons.mpr h)
    rw [tokens_cons (Ne.symm hc)]
    unfold token
    split
    · exact .run [c] (ih hs)
    · split
      · exact .one c (ih hs)
      · exact .char c (ih hs)

/-- What contains the text is found. -/
theorem isMatch_infix (h : '\\' ∉ s) {whole : List Char} (hmid : s <:+: whole) :
    isMatch (tokens ('%' :: (s ++ ['%']))) whole = true := by
  obtain ⟨first, last, rfl⟩ := hmid
  have hlast : Matches [.run] last := by
    have hrun := Matches.run last .nil
    rwa [List.append_nil] at hrun
  have htokens : tokens ('%' :: (s ++ ['%'])) = .run :: (tokens s ++ [.run]) := by
    rw [tokens_cons (by decide), tokens_append h]
    rfl
  rw [htokens, isMatch_iff, List.append_assoc]
  exact .run first ((matches_tokens h).append hlast)

end Plain

end Like
