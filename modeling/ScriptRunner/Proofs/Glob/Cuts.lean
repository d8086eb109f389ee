import Mathlib.Data.List.Basic
import ScriptRunner.Glob.Set

/-!
# Where a path is cut

The tokens of a glob hand the rest of a path to whatever comes after them.  They look at nothing else: a path is matched
exactly if it can be cut into a part that the tokens match alone and a rest that is accepted (`cuts_tokens`).  Each way
of matching has this property, and ways of matching that have it can be put one after another and side by side.

So a glob that ends in a slash and two stars matches everything below a directory if it matches one name in it
(`matchesBytes_of_name`), and a glob that ends in a character matches only paths that end in its bytes
(`suffix_of_matchesBytes`).
-/

namespace ScriptRunner.Glob

variable {m m' : Rest → Rest} {free : UInt8 → Bool} {bs : List UInt8}

/-- What is matched is a part that is matched alone, and a rest that is accepted. -/
def Cuts (m : Rest → Rest) : Prop :=
  ∀ k bs, m k bs ↔ ∃ part rest, bs = part ++ rest ∧ m atEnd part ∧ k rest

/-! ### Ways of matching -/

theorem atEnd_iff : atEnd bs ↔ bs = [] := List.isEmpty_iff

theorem cuts_nothing : Cuts fun k => k := by
  refine fun k bs => ⟨fun h => ⟨[], bs, rfl, rfl, h⟩, ?_⟩
  rintro ⟨part, rest, rfl, hpart, h⟩
  rwa [atEnd_iff.1 hpart]

theorem cuts_never : Cuts fun _ _ => false := fun k bs => by simp

theorem Cuts.comp (h : Cuts m) (h' : Cuts m') : Cuts fun k => m (m' k) := by
  intro k bs
  constructor
  · intro hm
    obtain ⟨part, rest, rfl, hpart, hrest⟩ := (h _ _).1 hm
    obtain ⟨part', rest', rfl, hpart', hrest'⟩ := (h' _ _).1 hrest
    exact ⟨part ++ part', rest', by simp, (h _ _).2 ⟨part, part', rfl, hpart, hpart'⟩, hrest'⟩
  · rintro ⟨part, rest, rfl, hpart, hrest⟩
    obtain ⟨part, part', rfl, hfirst, hsecond⟩ := (h _ _).1 hpart
    rw [List.append_assoc]
    exact (h _ _).2 ⟨part, part' ++ rest, rfl, hfirst, (h' _ _).2 ⟨part', rest, rfl, hsecond, hrest⟩⟩

theorem Cuts.or (h : Cuts m) (h' : Cuts m') : Cuts fun k bs => m k bs || m' k bs := by
  intro k bs
  simp only [Bool.or_eq_true, h k bs, h' k bs, or_and_right, and_or_left, exists_or]

theorem Cuts.guard (h : Cuts m) (c : Bool) : Cuts fun k bs => c && m k bs := by
  cases c
  · exact cuts_never
  · simpa using h

theorem cuts_oneByte (p : UInt8 → Bool) : Cuts (oneByte p) := by
  intro k bs
  cases bs with
  | nil => simp [oneByte]
  | cons b bs =>
    constructor
    · intro h
      obtain ⟨hb, hk⟩ := Bool.and_eq_true_iff.1 h
      exact ⟨[b], bs, rfl, by simp [oneByte, hb, atEnd], hk⟩
    · rintro ⟨part, rest, heq, hpart, hrest⟩
      cases part with
      | nil => simp [oneByte] at hpart
      | cons c part =>
        obtain ⟨hc, hend⟩ := Bool.and_eq_true_iff.1 hpart
        rw [atEnd_iff.1 hend] at heq
        obtain ⟨rfl, rfl⟩ := List.cons.inj heq
        exact Bool.and_eq_true_iff.2 ⟨hc, hrest⟩

theorem exactly_iff {k : Rest} {cs : List UInt8} : exactly k cs bs ↔ ∃ rest, bs = cs ++ rest ∧ k rest := by
  induction cs generalizing bs with
  | nil => simp [exactly]
  | cons c cs ih =>
    cases bs with
    | nil => simp [exactly]
    | cons b bs => simp [exactly, ih, eq_comm (a := c), and_assoc]

theorem exactly_atEnd_iff {cs : List UInt8} : exactly atEnd cs bs ↔ bs = cs := by
  simp [exactly_iff, atEnd_iff]

theorem cuts_exactly (cs : List UInt8) : Cuts fun k => exactly k cs := by
  intro k bs
  rw [exactly_iff]
  constructor
  · rintro ⟨rest, rfl, hk⟩
    exact ⟨cs, rest, rfl, exactly_atEnd_iff.2 rfl, hk⟩
  · rintro ⟨part, rest, rfl, hpart, hk⟩
    exact ⟨rest, by rw [exactly_atEnd_iff.1 hpart], hk⟩

theorem cuts_anyRun (p : UInt8 → Bool) : Cuts (anyRun p) := by
  intro k bs
  induction bs with
  | nil => simp [anyRun, atEnd]
  | cons b bs ih =>
    simp only [anyRun, Bool.or_eq_true, Bool.and_eq_true, ih]
    constructor
    · rintro (hk | ⟨hb, part, rest, rfl, hpart, hk⟩)
      · exact ⟨[], b :: bs, rfl, rfl, hk⟩
      · exact ⟨b :: part, rest, rfl, by simp [anyRun, hb, hpart], hk⟩
    · rintro ⟨part, rest, heq, hpart, hk⟩
      cases part with
      | nil => exact .inl (by simpa using heq ▸ hk)
      | cons c part =>
        obtain ⟨rfl, rfl⟩ := List.cons.inj heq
        simp only [anyRun, atEnd, List.isEmpty_cons, Bool.false_or, Bool.and_eq_true] at hpart
        exact .inr ⟨hpart.1, part, rest, rfl, hpart.2, hk⟩

theorem anyRun_atEnd (bs : List UInt8) : anyRun (fun _ => true) atEnd bs := by
  induction bs with
  | nil => rfl
  | cons b bs ih => simp [anyRun, ih]

/-! ### Tokens -/

mutual

theorem cuts_token : ∀ t : Token, Cuts fun k => matchToken free k t
  | .literal c => by
    simp only [matchToken]
    exact cuts_exactly _
  | .any => by
    simp only [matchToken]
    exact cuts_oneByte _
  | .star => by
    simp only [matchToken]
    exact cuts_anyRun _
  | .leadingDirs => by
    simp only [matchToken]
    exact (cuts_nothing.or (cuts_exactly _)).or ((cuts_anyRun _).comp (cuts_exactly _))
  | .trailingDirs => by
    simp only [matchToken]
    exact (cuts_exactly _).comp (cuts_anyRun _)
  | .innerDirs => by
    simp only [matchToken]
    exact (cuts_exactly _).or ((cuts_exactly _).comp ((cuts_anyRun _).comp (cuts_exactly _)))
  | .choice negated ranges => by
    simp only [matchToken]
    exact cuts_oneByte _
  | .alternatives branches => by
    simp only [matchToken]
    split
    · exact cuts_nothing
    · exact cuts_branches branches

theorem cuts_tokens : ∀ ts : List Token, Cuts fun k => matchTokens free k ts
  | [] => by
    simp only [matchTokens]
    exact cuts_nothing
  | t :: ts => by
    simp only [matchTokens]
    exact (cuts_token t).comp (cuts_tokens ts)

theorem cuts_branches : ∀ branches : List (List Token), Cuts fun k => matchBranches free k branches
  | [] => by
    simp only [matchBranches]
    exact cuts_never
  | ts :: more => by
    simp only [matchBranches]
    exact ((cuts_tokens ts).guard _).or (cuts_branches more)

end

theorem matchTokens_append (k : Rest) (ts us : List Token) :
    matchTokens free k (ts ++ us) = matchTokens free (matchTokens free k us) ts := by
  induction ts with
  | nil => simp [matchTokens]
  | cons t ts ih => simp [matchTokens, ih]

/-! ### The ends of globs -/

variable {g : Glob} {ts : List Token}

theorem matchesBytes_concat {t : Token} (h : g.tokens = ts ++ [t]) (ht : t ≠ .leadingDirs) :
    g.matchesBytes bs = matchTokens g.freeByte (matchToken g.freeByte atEnd t) ts bs := by
  have hmatch : g.matchesBytes bs = matchTokens g.freeByte atEnd g.tokens bs := by
    unfold matchesBytes
    split
    · rename_i hg
      rw [hg] at h
      cases ts with
      | nil => exact absurd (List.cons.inj h).1.symm ht
      | cons => simp at h
    · rfl
  rw [hmatch, h, matchTokens_append]
  simp only [matchTokens]

/-- A glob that ends in a character matches no path without the bytes of the character at its end. -/
theorem suffix_of_matchesBytes {c : Char} (h : g.tokens.getLast? = some (.literal c)) (hm : g.matchesBytes bs) :
    charBytes c <:+ bs := by
  obtain ⟨ts, hts⟩ := List.getLast?_eq_some_iff.1 h
  rw [matchesBytes_concat hts nofun, cuts_tokens ts] at hm
  obtain ⟨part, rest, rfl, -, hrest⟩ := hm
  rw [matchToken, exactly_atEnd_iff] at hrest
  exact hrest ▸ List.suffix_append _ _

theorem matchesBytes_iff_of_trailingDirs (h : g.tokens = ts ++ [.trailingDirs]) :
    g.matchesBytes bs ↔ ∃ part below, bs = part ++ slash :: below ∧ matchTokens g.freeByte atEnd ts part := by
  have hbelow : ∀ {rest}, matchToken g.freeByte atEnd .trailingDirs rest ↔ ∃ below, rest = slash :: below := by
    simp [matchToken, exactly_iff, anyRun_atEnd]
  rw [matchesBytes_concat h nofun, cuts_tokens ts]
  constructor
  · rintro ⟨part, rest, rfl, hpart, hrest⟩
    obtain ⟨below, rfl⟩ := hbelow.1 hrest
    exact ⟨part, below, rfl, hpart⟩
  · rintro ⟨part, below, rfl, hpart⟩
    exact ⟨part, _, rfl, hpart, hbelow.2 ⟨below, rfl⟩⟩

/-- A glob that ends in everything below a directory matches all of it if it matches one name. -/
theorem matchesBytes_of_name (h : g.tokens.getLast? = some .trailingDirs) {dir name below : List UInt8}
    (hn : slash ∉ name) (hm : g.matchesBytes (dir ++ slash :: name)) : g.matchesBytes (dir ++ slash :: below) := by
  obtain ⟨ts, hts⟩ := List.getLast?_eq_some_iff.1 h
  obtain ⟨part, rest, heq, hpart⟩ := (matchesBytes_iff_of_trailingDirs hts).1 hm
  refine (matchesBytes_iff_of_trailingDirs hts).2 ?_
  -- the slash that the last token takes is not in the name, so it is the one before it or an earlier one
  rcases List.append_eq_append_iff.1 heq with ⟨more, rfl, hmore⟩ | ⟨more, rfl, hmore⟩
  · cases more with
    | nil => exact ⟨_, below, by simp, hpart⟩
    | cons c more =>
      obtain ⟨-, rfl⟩ := List.cons.inj hmore
      exact absurd (by simp) hn
  · cases more with
    | nil => exact ⟨part, below, by simp, hpart⟩
    | cons c more =>
      obtain ⟨rfl, -⟩ := List.cons.inj hmore
      exact ⟨part, more ++ slash :: below, by simp, hpart⟩

end ScriptRunner.Glob
