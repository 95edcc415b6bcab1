import Mathlib.Data.List.Nodup

/-!
# Tables with a primary key

A table of rows whose keys are distinct. To write a row is to put it in the place of the one with
its key, or at the end when there is none.
-/

namespace Lib

variable {ρ κ : Type*}

structure KeyedTable (key : ρ → κ) where
  rows : List ρ
  distinct : (rows.map key).Nodup

namespace KeyedTable

variable {key : ρ → κ}

def empty (key : ρ → κ) : KeyedTable key := ⟨[], List.nodup_nil⟩

variable [DecidableEq κ]

/-- The rows with `r` in the place of the one with its key. -/
def replace (key : ρ → κ) (r : ρ) (rows : List ρ) : List ρ :=
  rows.map fun a => if key a = key r then r else a

lemma map_key_replace (r : ρ) (rows : List ρ) :
    (replace key r rows).map key = rows.map key := by
  rw [replace, List.map_map]
  apply List.map_congr_left
  intro a _
  rw [Function.comp_apply]
  split_ifs with h
  · exact h.symm
  · rfl

def write (t : KeyedTable key) (r : ρ) : KeyedTable key :=
  if h : key r ∈ t.rows.map key then
    ⟨replace key r t.rows, by
      rw [map_key_replace]
      exact t.distinct⟩
  else
    ⟨t.rows ++ [r], by
      rw [List.map_append, List.map_singleton, List.nodup_append_comm]
      exact List.nodup_cons.mpr ⟨h, t.distinct⟩⟩

def delete (t : KeyedTable key) (k : κ) : KeyedTable key :=
  ⟨t.rows.filter fun a => key a ≠ k, t.distinct.sublist (List.filter_sublist.map key)⟩

/-- One column of the rows with a key. -/
def column {β : Type*} (t : KeyedTable key) (f : ρ → β) (k : κ) : List β :=
  (t.rows.filter fun a => key a = k).map f

variable {t : KeyedTable key} {r a : ρ} {k : κ}

/-- The row that is written is there, and those with other keys are. -/
lemma mem_write : a ∈ (t.write r).rows ↔ a = r ∨ a ∈ t.rows ∧ key a ≠ key r := by
  rw [write]
  split_ifs with h
  · simp only [replace, List.mem_map]
    constructor
    · rintro ⟨b, hb, rfl⟩
      split_ifs with hkey
      · exact .inl rfl
      · exact .inr ⟨hb, hkey⟩
    · rintro (rfl | ⟨ha, hkey⟩)
      · obtain ⟨b, hb, hkey⟩ := List.mem_map.mp h
        exact ⟨b, hb, if_pos hkey⟩
      · exact ⟨a, ha, if_neg hkey⟩
  · rw [List.mem_append, List.mem_singleton, or_comm]
    apply or_congr_right
    constructor
    · intro ha
      exact ⟨ha, fun hkey => h (hkey ▸ List.mem_map_of_mem ha)⟩
    · exact And.left

lemma mem_delete : a ∈ (t.delete k).rows ↔ a ∈ t.rows ∧ key a ≠ k := by
  simp [delete]

end KeyedTable

end Lib
