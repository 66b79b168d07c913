import Mathlib.Data.List.Basic

/-!
# Bounded maps that evict the least recently used entry

The entries are kept in the order of their last use, newest first; a hit moves an
entry to the front, an insertion over the bound drops the last one. What a reader
relies on is that whatever it finds was inserted under its key.
-/

namespace NodeComponents.Lib.Lru

variable {κ α : Type} [DecidableEq κ]

/-- Look a key up, and make it the most recent one if it is there. -/
def get (key : κ) (entries : List (κ × α)) : Option α × List (κ × α) :=
  match entries.find? fun e => e.1 = key with
  | none => (none, entries)
  | some e => (some e.2, e :: entries.filter fun e => e.1 ≠ key)

/-- Insert or replace an entry as the most recent one. -/
def insert (cap : Nat) (key : κ) (value : α) (entries : List (κ × α)) : List (κ × α) :=
  ((key, value) :: entries.filter fun e => e.1 ≠ key).take cap

/-- A hit is an entry of the key. -/
theorem get_hit {key : κ} {entries : List (κ × α)} {value : α}
    (h : (get key entries).1 = some value) : (key, value) ∈ entries := by
  unfold get at h
  split at h
  · exact absurd h (by simp)
  · rename_i e he
    have hkey : e.1 = key := by simpa using List.find?_some he
    rw [← Option.some.inj h, ← hkey]
    exact List.mem_of_find?_eq_some he

/-- A miss is the lack of one. -/
theorem get_miss_iff {key : κ} {entries : List (κ × α)} :
    (get key entries).1 = none ↔ ∀ value, (key, value) ∉ entries := by
  unfold get
  cases hfind : entries.find? fun e => e.1 = key with
  | none =>
      refine iff_of_true rfl fun value hmem => ?_
      have hne := List.find?_eq_none.mp hfind _ hmem
      simp at hne
  | some e =>
      refine iff_of_false (by simp) fun hno => hno e.2 ?_
      have hkey : e.1 = key := by simpa using List.find?_some hfind
      rw [← hkey]
      exact List.mem_of_find?_eq_some hfind

/-- Looking up adds no entry. -/
theorem mem_of_mem_get {key : κ} {entries : List (κ × α)} {e : κ × α}
    (h : e ∈ (get key entries).2) : e ∈ entries := by
  unfold get at h
  split at h
  · exact h
  · rename_i hit hhit
    rcases List.mem_cons.mp h with rfl | h
    · exact List.mem_of_find?_eq_some hhit
    · exact (List.mem_filter.mp h).1

/-- Inserting adds no other entry. -/
theorem mem_of_mem_insert {cap : Nat} {key : κ} {value : α} {entries : List (κ × α)} {e : κ × α}
    (h : e ∈ insert cap key value entries) : e = (key, value) ∨ e ∈ entries := by
  rcases List.mem_cons.mp (List.mem_of_mem_take h) with heq | hmem
  · exact Or.inl heq
  · exact Or.inr (List.mem_filter.mp hmem).1

/-! ## Bounds and keys -/

theorem insert_length_le {cap : Nat} {key : κ} {value : α} {entries : List (κ × α)} :
    (insert cap key value entries).length ≤ cap := List.length_take_le _ _

/-- A lookup reorders the entries. -/
theorem get_length_le (key : κ) (entries : List (κ × α)) :
    (get key entries).2.length ≤ entries.length := by
  unfold get
  cases hfind : entries.find? fun e => e.1 = key with
  | none => exact Nat.le_refl _
  | some e =>
      -- the entry that is moved to the front was filtered out behind it
      have hmem := List.mem_of_find?_eq_some hfind
      have hkey : e.1 = key := by simpa using List.find?_some hfind
      exact List.length_filter_lt_length_iff_exists.mpr ⟨e, hmem, by simp [hkey]⟩

/-- The keys of the entries. -/
def keys (entries : List (κ × α)) : List κ := entries.map Prod.fst

theorem nodup_front {key : κ} {value : α} {entries : List (κ × α)} (h : (keys entries).Nodup) :
    (keys ((key, value) :: entries.filter fun e => e.1 ≠ key)).Nodup := by
  refine List.nodup_cons.mpr ⟨?_, h.sublist (List.filter_sublist.map _)⟩
  intro hmem
  obtain ⟨e, he, hkey⟩ := List.mem_map.mp hmem
  have hne := (List.mem_filter.mp he).2
  rw [decide_eq_true_eq] at hne
  exact hne hkey

theorem get_nodup (key : κ) {entries : List (κ × α)} (h : (keys entries).Nodup) :
    (keys (get key entries).2).Nodup := by
  unfold get
  cases hfind : entries.find? fun e => e.1 = key with
  | none => exact h
  | some e =>
      obtain rfl : e.1 = key := by simpa using List.find?_some hfind
      exact nodup_front h

theorem insert_nodup {cap : Nat} {key : κ} {value : α} {entries : List (κ × α)}
    (h : (keys entries).Nodup) : (keys (insert cap key value entries)).Nodup :=
  (nodup_front h).sublist ((List.take_sublist _ _).map _)

end NodeComponents.Lib.Lru
