/-!
# Ordered maps

A map is the list of its entries in the order in which their keys first came.

* `Assoc.set`       an entry, in its old place if the key has one; `lookup_set` says what is
                    found afterwards, `set_of_not_mem` that a new key comes last;
* `Assoc.update`    the entries of a second map on top of a first;
* `Assoc.ofPairs`   the map of some pairs, the last one of a key winning;
* `Assoc.erase`     a map without a key;
* `Assoc.push`      one more value in the list of a key; `push_append_of_not_mem` says that it is
                    looked for from the front.
-/

namespace CodeChart.Assoc

variable {α β : Type} [DecidableEq α]

def set (m : List (α × β)) (key : α) (v : β) : List (α × β) :=
  match m with
  | [] => [(key, v)]
  | e :: rest => if e.1 = key then (key, v) :: rest else e :: set rest key v

def update (m other : List (α × β)) : List (α × β) :=
  other.foldl (fun acc e => set acc e.1 e.2) m

def ofPairs (pairs : List (α × β)) : List (α × β) := update [] pairs

def erase (m : List (α × β)) (key : α) : List (α × β) := m.filter fun e => e.1 ≠ key

/-- a key that is new starts with an empty list -/
def push (m : List (α × List β)) (key : α) (v : β) : List (α × List β) :=
  match m with
  | [] => [(key, [v])]
  | e :: rest => if e.1 = key then (key, e.2 ++ [v]) :: rest else e :: push rest key v

theorem lookup_set (m : List (α × β)) (key k : α) (v : β) :
    (set m key v).lookup k = if k = key then some v else m.lookup k := by
  induction m with
  | nil =>
    by_cases h : k = key
    · simp [set, h]
    · have hk : (k == key) = false := beq_eq_false_iff_ne.2 h
      simp [set, List.lookup_cons, h, hk]
  | cons e rest ih =>
    obtain ⟨first, w⟩ := e
    simp only [set]
    split
    · rename_i he
      by_cases h : k = key
      · simp [h]
      · have hk : (k == key) = false := beq_eq_false_iff_ne.2 h
        simp [List.lookup_cons, he, h, hk]
    · rename_i he
      simp only [List.lookup_cons, ih]
      split
      · rename_i hk
        have h : k ≠ key := fun h => he (by rw [← beq_iff_eq.1 hk, h])
        rw [if_neg h]
      · rfl

theorem set_of_not_mem {m : List (α × β)} {key : α} (h : key ∉ m.map Prod.fst) (v : β) :
    set m key v = m ++ [(key, v)] := by
  induction m with
  | nil => rfl
  | cons e rest ih =>
    simp only [List.map_cons, List.mem_cons, not_or] at h
    rw [set, if_neg (fun he => h.1 he.symm), ih h.2]
    rfl

theorem push_append_of_not_mem {m : List (α × List β)} {key : α} (h : key ∉ m.map Prod.fst)
    (rest : List (α × List β)) (v : β) : push (m ++ rest) key v = m ++ push rest key v := by
  induction m with
  | nil => rfl
  | cons e m ih =>
    simp only [List.map_cons, List.mem_cons, not_or] at h
    rw [List.cons_append, push, if_neg (fun he => h.1 he.symm), ih h.2, List.cons_append]

end CodeChart.Assoc
