import FunctionService.TypeDesc

/-!
# Symbol tables

The type names of a package and what they stand for. The entries are kept in ascending order of their
names with no name twice, so two tables that bind the same names to the same symbols are equal.
-/

namespace FunctionService

/-- A finite map from type names to type symbols. -/
structure SymbolTable where
  entries : List (String × TypeSymbol)
  ascending : entries.Pairwise fun a b => a.1 < b.1
  deriving DecidableEq

namespace SymbolTable

/-- The table without entries. -/
def empty : SymbolTable :=
  ⟨[], .nil⟩

instance : Inhabited SymbolTable :=
  ⟨empty⟩

/-- Puts an entry at its place, over an entry of the same name. -/
def insertEntry (name : String) (symbol : TypeSymbol) :
    List (String × TypeSymbol) → List (String × TypeSymbol)
  | [] => [(name, symbol)]
  | (name', symbol') :: rest =>
    if name < name' then (name, symbol) :: (name', symbol') :: rest
    else if name = name' then (name, symbol) :: rest
    else (name', symbol') :: insertEntry name symbol rest

theorem mem_insertEntry {name : String} {symbol : TypeSymbol} {e : String × TypeSymbol} :
    ∀ {entries : List (String × TypeSymbol)}, e ∈ insertEntry name symbol entries →
      e = (name, symbol) ∨ e ∈ entries
  | [], h => by simpa [insertEntry] using h
  | (name', symbol') :: rest, h => by
    simp only [insertEntry] at h
    split at h
    · simpa using h
    · split at h
      · rcases List.mem_cons.mp h with h | h
        · exact .inl h
        · exact .inr (List.mem_cons_of_mem _ h)
      · rcases List.mem_cons.mp h with h | h
        · exact .inr (h ▸ List.mem_cons_self)
        · rcases mem_insertEntry h with h | h
          · exact .inl h
          · exact .inr (List.mem_cons_of_mem _ h)

theorem insertEntry_ascending (name : String) (symbol : TypeSymbol) :
    ∀ {entries : List (String × TypeSymbol)}, entries.Pairwise (fun a b => a.1 < b.1) →
      (insertEntry name symbol entries).Pairwise fun a b => a.1 < b.1
  | [], _ => by simp [insertEntry]
  | (name', symbol') :: rest, h => by
    obtain ⟨hhead, htail⟩ := List.pairwise_cons.mp h
    simp only [insertEntry]
    split
    · rename_i hlt
      refine List.pairwise_cons.mpr ⟨fun e he => ?_, h⟩
      rcases List.mem_cons.mp he with rfl | he
      · exact hlt
      · exact String.lt_trans hlt (hhead e he)
    · rename_i hnlt
      split
      · rename_i heq
        exact List.pairwise_cons.mpr ⟨fun e he => heq ▸ hhead e he, htail⟩
      · rename_i hne
        refine List.pairwise_cons.mpr ⟨fun e he => ?_, insertEntry_ascending name symbol htail⟩
        rcases mem_insertEntry he with rfl | he
        · rcases String.le_total name name' with hle | hle
          · exact absurd (String.le_antisymm hle (String.not_lt.mp hnlt)) hne
          · exact (String.not_le.mp fun hle' => hne (String.le_antisymm hle' hle))
        · exact hhead e he

/-- Binds a name, over an earlier binding of it. -/
def insert (t : SymbolTable) (name : String) (symbol : TypeSymbol) : SymbolTable :=
  ⟨insertEntry name symbol t.entries, insertEntry_ascending name symbol t.ascending⟩

/-- The table that binds the names of a list; of several bindings of one name the last counts. -/
def ofList (bindings : List (String × TypeSymbol)) : SymbolTable :=
  bindings.foldl (fun t b => t.insert b.1 b.2) empty

/-- What a name stands for. -/
def resolve (t : SymbolTable) (name : String) : Option TypeSymbol :=
  t.entries.lookup name

/-- The table without one name. -/
def erase (t : SymbolTable) (name : String) : SymbolTable :=
  ⟨t.entries.filter fun e => e.1 != name, t.ascending.filter _⟩

/-- The number of names bound. -/
def size (t : SymbolTable) : Nat :=
  t.entries.length

/-- Erasing a bound name leaves fewer names. -/
theorem size_erase_lt {t : SymbolTable} {name : String} {symbol : TypeSymbol}
    (h : t.resolve name = some symbol) : (t.erase name).size < t.size := by
  have hlt : ∀ entries : List (String × TypeSymbol), entries.lookup name = some symbol →
      (entries.filter fun e => e.1 != name).length < entries.length := by
    intro entries
    induction entries with
    | nil => intro h; simp at h
    | cons e rest ih =>
      obtain ⟨k, s⟩ := e
      intro h
      rw [List.lookup_cons] at h
      by_cases hk : k = name
      · subst hk
        simpa using Nat.lt_succ_of_le (List.length_filter_le _ rest)
      · have hne : (name == k) = false := by simpa using fun h => hk h.symm
        rw [hne] at h
        simpa [hk] using ih h
  exact hlt _ h

end SymbolTable

end FunctionService
