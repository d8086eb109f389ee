/-!
# Maps in key order

A `SortedMap` is a list of pairs with strictly ascending keys.  `get?_insert` says what a look-up finds after an entry
is put in, `get?_ofList` what it finds after a list of them; `ext_get?` says that two maps with the same answers are
equal, so that the order in which pairs were put in never shows.
-/

namespace ScriptRunner

/-- Pairs in strictly ascending order of their keys. -/
structure SortedMap (κ : Type u) (α : Type v) [Ord κ] where
  entries : List (κ × α)
  ascending : entries.Pairwise fun a b => compare a.1 b.1 = .lt

namespace SortedMap

variable {κ : Type u} {α : Type v} [Ord κ]

instance : Inhabited (SortedMap κ α) := ⟨⟨[], .nil⟩⟩

instance : EmptyCollection (SortedMap κ α) := ⟨⟨[], .nil⟩⟩

instance [BEq κ] [BEq α] : BEq (SortedMap κ α) := ⟨fun m n => m.entries == n.entries⟩

theorem ext {m n : SortedMap κ α} (h : m.entries = n.entries) : m = n := by
  cases m; cases n; cases h; rfl

instance [DecidableEq κ] [DecidableEq α] : DecidableEq (SortedMap κ α) := fun m n =>
  if h : m.entries = n.entries then isTrue (ext h) else isFalse fun e => h (e ▸ rfl)

/-- The value at a key. -/
def get? (m : SortedMap κ α) (k : κ) : Option α :=
  (m.entries.find? fun e => compare e.1 k == .eq).map (·.2)

def contains (m : SortedMap κ α) (k : κ) : Bool := (m.get? k).isSome

def keys (m : SortedMap κ α) : List κ := m.entries.map (·.1)

def size (m : SortedMap κ α) : Nat := m.entries.length

def isEmpty (m : SortedMap κ α) : Bool := m.entries.isEmpty

/-- The pairs with one more, which replaces a pair of the same key. -/
def insertEntry (k : κ) (a : α) : List (κ × α) → List (κ × α)
  | [] => [(k, a)]
  | e :: es =>
    match compare k e.1 with
    | .lt => (k, a) :: e :: es
    | .eq => (k, a) :: es
    | .gt => e :: insertEntry k a es

theorem mem_insertEntry {k : κ} {a : α} {es : List (κ × α)} {e : κ × α} (h : e ∈ insertEntry k a es) :
    e = (k, a) ∨ e ∈ es := by
  induction es with
  | nil => simpa [insertEntry] using h
  | cons d es ih =>
    unfold insertEntry at h
    split at h
    · simpa using h
    · rcases List.mem_cons.1 h with rfl | h
      · exact .inl rfl
      · exact .inr (by simp [h])
    · rcases List.mem_cons.1 h with rfl | h
      · exact .inr (by simp)
      · rcases ih h with h | h
        · exact .inl h
        · exact .inr (by simp [h])

theorem get?_empty (k : κ) : (∅ : SortedMap κ α).get? k = none := rfl

variable [Std.TransOrd κ] [Std.LawfulEqOrd κ]

theorem insertEntry_ascending {k : κ} {a : α} {es : List (κ × α)}
    (h : es.Pairwise fun a b => compare a.1 b.1 = .lt) :
    (insertEntry k a es).Pairwise fun a b => compare a.1 b.1 = .lt := by
  induction es with
  | nil => simp [insertEntry]
  | cons e es ih =>
    rw [List.pairwise_cons] at h
    unfold insertEntry
    split
    · rename_i hlt
      refine List.pairwise_cons.2 ⟨fun d hd => ?_, List.pairwise_cons.2 h⟩
      rcases List.mem_cons.1 hd with rfl | hd
      · exact hlt
      · exact Std.TransCmp.lt_trans hlt (h.1 d hd)
    · rename_i heq
      have hk : k = e.1 := Std.LawfulEqOrd.eq_of_compare heq
      exact List.pairwise_cons.2 ⟨fun d hd => hk ▸ h.1 d hd, h.2⟩
    · rename_i hgt
      refine List.pairwise_cons.2 ⟨fun d hd => ?_, ih h.2⟩
      rcases mem_insertEntry hd with rfl | hd
      · exact Std.OrientedCmp.lt_of_gt hgt
      · exact h.1 d hd

/-- The map with one more pair, which replaces a pair of the same key. -/
def insert (m : SortedMap κ α) (k : κ) (a : α) : SortedMap κ α :=
  ⟨insertEntry k a m.entries, insertEntry_ascending m.ascending⟩

/-- The map without a key. -/
def erase (m : SortedMap κ α) (k : κ) : SortedMap κ α :=
  ⟨m.entries.filter fun e => compare e.1 k != .eq, m.ascending.filter _⟩

/-- The map of some pairs; of two with one key the later counts. -/
def ofList (es : List (κ × α)) : SortedMap κ α := es.foldl (fun m e => m.insert e.1 e.2) ∅

/-- The same keys with other values. -/
def mapValues {β : Type w} (f : κ → α → β) (m : SortedMap κ α) : SortedMap κ β :=
  ⟨m.entries.map fun e => (e.1, f e.1 e.2), List.pairwise_map.2 m.ascending⟩

theorem get?_insert [DecidableEq κ] (m : SortedMap κ α) (k : κ) (a : α) (l : κ) :
    (m.insert k a).get? l = if k = l then some a else m.get? l := by
  obtain ⟨es, hes⟩ := m
  simp only [insert, get?]
  induction es with
  | nil => by_cases h : k = l <;> simp [insertEntry, h]
  | cons e es ih =>
    rw [List.pairwise_cons] at hes
    unfold insertEntry
    split
    · rename_i hlt
      by_cases h : k = l <;> simp [List.find?_cons, h]
    · rename_i heq
      have hk : k = e.1 := Std.LawfulEqOrd.eq_of_compare heq
      by_cases h : k = l
      · simp [h]
      · have : (compare e.1 l == .eq) = false := by simpa [← hk] using h
        simp [h, this]
    · rename_i hgt
      by_cases he : e.1 = l
      · have hk : k ≠ l := by
          rintro rfl
          simp [he] at hgt
        simp [he, hk]
      · have := ih hes.2
        simpa [List.find?_cons, he] using this

/-- What a map of some pairs has at a key is in the last pair of that key. -/
theorem get?_ofList [DecidableEq κ] (es : List (κ × α)) (k : κ) :
    (ofList es).get? k = ((es.filter (·.1 = k)).getLast?).map (·.2) := by
  have key : ∀ m : SortedMap κ α, (es.foldl (fun m e => m.insert e.1 e.2) m).get? k =
      (((es.filter (·.1 = k)).getLast?).map (·.2)).or (m.get? k) := by
    induction es with
    | nil => exact fun m => rfl
    | cons e es ih =>
      intro m
      rw [List.foldl_cons, ih, get?_insert]
      by_cases he : e.1 = k
      · rw [if_pos he, List.filter_cons_of_pos (by simpa using he), List.getLast?_cons]
        cases (es.filter (·.1 = k)).getLast? <;> rfl
      · rw [if_neg he, List.filter_cons_of_neg (by simpa using he)]
  rw [ofList, key, get?_empty, Option.or_none]

/-- What a map of some pairs has at a key is in one of them. -/
theorem mem_of_get?_ofList [DecidableEq κ] {es : List (κ × α)} {k : κ} {a : α} (h : (ofList es).get? k = some a) :
    (k, a) ∈ es := by
  rw [get?_ofList, Option.map_eq_some_iff] at h
  obtain ⟨e, he, rfl⟩ := h
  obtain ⟨hmem, hk⟩ := List.mem_filter.1 (List.mem_of_getLast? he)
  obtain rfl : e.1 = k := by simpa using hk
  exact hmem

/-- A map of some pairs has all their keys. -/
theorem contains_ofList [DecidableEq κ] {es : List (κ × α)} {k : κ} {a : α} (h : (k, a) ∈ es) :
    (ofList es).contains k := by
  have hne : es.filter (·.1 = k) ≠ [] := List.ne_nil_of_mem (List.mem_filter.2 ⟨h, by simp⟩)
  rw [contains, get?_ofList, Option.isSome_map]
  exact List.getLast?_isSome.2 hne

/-- A map of some pairs with other values. -/
theorem get?_ofList_map [DecidableEq κ] {β : Type w} (f : κ → α → β) (es : List (κ × α)) (k : κ) :
    (ofList (es.map fun e => (e.1, f e.1 e.2))).get? k = ((ofList es).get? k).map (f k) := by
  rw [get?_ofList, get?_ofList, List.filter_map, List.getLast?_map, Option.map_map, Option.map_map]
  refine Option.map_congr fun e he => ?_
  obtain rfl : e.1 = k := by simpa using (List.mem_filter.1 (List.mem_of_getLast? he)).2
  rfl

omit [Std.TransOrd κ] in
theorem get?_eq_some_iff {m : SortedMap κ α} {k : κ} {a : α} : m.get? k = some a ↔ (k, a) ∈ m.entries := by
  obtain ⟨es, hes⟩ := m
  simp only [get?, Option.map_eq_some_iff]
  constructor
  · rintro ⟨⟨k', a'⟩, hf, rfl⟩
    have hm := List.mem_of_find?_eq_some hf
    have hp := List.find?_some hf
    simp only [beq_iff_eq, Std.compare_eq_iff_eq] at hp
    exact hp ▸ hm
  · intro hm
    refine ⟨(k, a), ?_, rfl⟩
    induction es with
    | nil => simp at hm
    | cons e es ih =>
      rw [List.pairwise_cons] at hes
      rcases List.mem_cons.1 hm with rfl | hm
      · simp
      · have hlt := hes.1 _ hm
        have hne : e.1 ≠ k := by
          rintro h
          simp [h] at hlt
        simpa [List.find?_cons, hne] using ih hes.2 hm

omit [Std.TransOrd κ] in
theorem contains_iff_mem_keys {m : SortedMap κ α} {k : κ} : m.contains k ↔ k ∈ m.keys := by
  simp only [contains, Option.isSome_iff_exists, get?_eq_some_iff, keys, List.mem_map, Prod.exists]
  exact ⟨fun ⟨a, h⟩ => ⟨k, a, h, rfl⟩, fun ⟨_, a, h, he⟩ => ⟨a, he ▸ h⟩⟩

/-- A map of some pairs has their keys and no others. -/
theorem mem_keys_ofList [DecidableEq κ] {es : List (κ × α)} {k : κ} : k ∈ (ofList es).keys ↔ k ∈ es.map (·.1) := by
  rw [← contains_iff_mem_keys]
  constructor
  · intro h
    obtain ⟨a, ha⟩ := Option.isSome_iff_exists.1 h
    exact List.mem_map.2 ⟨_, mem_of_get?_ofList ha, rfl⟩
  · intro h
    obtain ⟨e, he, rfl⟩ := List.mem_map.1 h
    exact contains_ofList he

omit [Std.TransOrd κ] [Std.LawfulEqOrd κ] in
theorem nodup_keys [Std.ReflOrd κ] (m : SortedMap κ α) : m.keys.Nodup :=
  List.pairwise_map.2 (m.ascending.imp fun h he => by simp [he] at h)

/-- Two maps with the same answers are the same map. -/
theorem ext_get? {m n : SortedMap κ α} (h : ∀ k, m.get? k = n.get? k) : m = n := by
  have mem : ∀ e, e ∈ m.entries ↔ e ∈ n.entries := fun e => by
    rw [show e = (e.1, e.2) from rfl, ← get?_eq_some_iff, ← get?_eq_some_iff, h]
  obtain ⟨es, hes⟩ := m
  obtain ⟨fs, hfs⟩ := n
  refine ext ?_
  dsimp only at mem ⊢
  clear h
  induction es generalizing fs with
  | nil =>
    cases fs with
    | nil => rfl
    | cons f fs => exact absurd ((mem f).2 (by simp)) (by simp)
  | cons e es ih =>
    cases fs with
    | nil => exact absurd ((mem e).1 (by simp)) (by simp)
    | cons f fs =>
      rw [List.pairwise_cons] at hes hfs
      have hef : e = f := by
        rcases List.mem_cons.1 ((mem e).1 (by simp)) with h | h
        · exact h
        · rcases List.mem_cons.1 ((mem f).2 (by simp)) with h' | h'
          · exact h'.symm
          · have h₁ := hfs.1 _ h
            have h₂ := hes.1 _ h'
            exact absurd (Std.TransCmp.lt_trans h₁ h₂) (by simp)
      subst hef
      congr 1
      refine ih hes.2 fs hfs.2 fun x => ?_
      have key := mem x
      simp only [List.mem_cons] at key
      by_cases hx : x = e
      · subst hx
        constructor
        · intro hm
          exact absurd (hes.1 _ hm) (by simp)
        · intro hm
          exact absurd (hfs.1 _ hm) (by simp)
      · simpa [hx] using key

end SortedMap

end ScriptRunner
