import Mathlib.Data.List.Induction
import MiddlewareBench.Lib.StableSort

/-!
# Insertion-ordered dictionaries

A `Dict` lists its entries in the order in which their keys were first set; setting
a key again changes its value in place. `foldBy key merge` is the loop that goes
through a list and merges each element into the entry of its key: the entry is the
fold over the elements with that key (`get?_foldBy`), and a class of keys can be
looked at alone (`filterKeys_foldBy`).

When the values are elements themselves, the values of the dictionary, sorted or
not, stand for the list they came from: going on from them gives what going on from
the list would (`sortBy_foldBy_append`).
-/

namespace MiddlewareBench

open StableSort

structure Dict (κ ν : Type*) where
  items : List (κ × ν)
  nodup : (items.map Prod.fst).Nodup

namespace Dict

variable {κ ν α : Type*} [DecidableEq κ] {d : Dict κ ν} {k k' : κ} {v : ν}

instance [DecidableEq ν] : DecidableEq (Dict κ ν) := fun d d' =>
  decidable_of_iff (d.items = d'.items) (by cases d; cases d'; simp)

def empty : Dict κ ν := ⟨[], List.nodup_nil⟩

def keys (d : Dict κ ν) : List κ := d.items.map Prod.fst

def values (d : Dict κ ν) : List ν := d.items.map Prod.snd

def get? (d : Dict κ ν) (k : κ) : Option ν :=
  (d.items.find? fun e => e.1 = k).map Prod.snd

/-- The entry with its value replaced, when it is that of `k`. -/
def replace (k : κ) (v : ν) (e : κ × ν) : κ × ν :=
  if e.1 = k then (e.1, v) else e

omit [DecidableEq κ] in
@[ext] theorem ext {d d' : Dict κ ν} (items : d.items = d'.items) : d = d' := by
  cases d
  cases d'
  cases items
  rfl

@[simp] theorem replace_fst (e : κ × ν) : (replace k v e).1 = e.1 := by
  unfold replace
  split <;> rfl

theorem keys_map_replace (items : List (κ × ν)) :
    (items.map (replace k v)).map Prod.fst = items.map Prod.fst := by
  rw [List.map_map]
  exact List.map_congr_left fun e _ => replace_fst e

def set (d : Dict κ ν) (k : κ) (v : ν) : Dict κ ν :=
  if h : k ∈ d.keys then ⟨d.items.map (replace k v), by rw [keys_map_replace]; exact d.nodup⟩
  else ⟨d.items ++ [(k, v)], by
    rw [List.map_append, List.map_singleton]
    exact List.nodup_append'.mpr ⟨d.nodup, List.nodup_singleton k, by simpa [keys] using h⟩⟩

/-! ## Reading back -/

theorem get?_eq_some : d.get? k = some v ↔ (k, v) ∈ d.items := by
  unfold get?
  rw [Option.map_eq_some_iff]
  refine ⟨?_, ?_⟩
  · intro found
    rcases found with ⟨e, first, rfl⟩
    have key : e.1 = k := by simpa using List.find?_some first
    rw [← key]
    exact List.mem_of_find?_eq_some first
  · intro member
    have some' : (d.items.find? fun e => e.1 = k).isSome := by
      rw [List.find?_isSome]
      exact ⟨(k, v), member, by simp⟩
    obtain ⟨e, first⟩ := Option.isSome_iff_exists.mp some'
    refine ⟨e, first, ?_⟩
    have key : e.1 = k := by simpa using List.find?_some first
    have same := List.inj_on_of_nodup_map d.nodup (List.mem_of_find?_eq_some first) member key
    rw [same]

theorem get?_eq_none : d.get? k = none ↔ k ∉ d.keys := by
  unfold get? keys
  rw [Option.map_eq_none_iff, List.find?_eq_none, List.mem_map]
  refine ⟨?_, ?_⟩
  · intro none found
    rcases found with ⟨e, member, key⟩
    exact none e member (by simp [key])
  · intro absent e member key
    exact absent ⟨e, member, by simpa using key⟩

theorem mem_keys : k ∈ d.keys ↔ ∃ v, d.get? k = some v := by
  rw [← not_iff_not, ← get?_eq_none, Option.eq_none_iff_forall_ne_some]
  push Not
  rfl

theorem get?_set (d : Dict κ ν) (k k' : κ) (v : ν) :
    (d.set k v).get? k' = if k = k' then some v else d.get? k' := by
  apply Option.ext
  intro w
  rw [get?_eq_some]
  unfold set
  split
  · rename_i present
    obtain ⟨old, there⟩ := mem_keys.mp present
    rw [get?_eq_some] at there
    split
    · rename_i same
      subst same
      refine ⟨?_, ?_⟩
      · intro member
        obtain ⟨e, inside, image⟩ := List.mem_map.mp member
        have key : e.1 = k := by rw [← replace_fst (k := k) (v := v) e, image]
        rw [replace, if_pos key] at image
        exact congrArg some (Prod.mk.inj image).2
      · intro same
        rw [← Option.some.inj same]
        exact List.mem_map.mpr ⟨(k, old), there, by simp [replace]⟩
    · rename_i other
      rw [get?_eq_some]
      refine ⟨?_, ?_⟩
      · intro member
        obtain ⟨e, inside, image⟩ := List.mem_map.mp member
        have key : e.1 = k' := by rw [← replace_fst (k := k) (v := v) e, image]
        rw [replace, if_neg (fun own => other (own.symm.trans key))] at image
        rwa [← image]
      · intro member
        refine List.mem_map.mpr ⟨(k', w), member, ?_⟩
        rw [replace, if_neg fun own => other own.symm]
  · rename_i absent
    rw [List.mem_append, List.mem_singleton, Prod.mk.injEq]
    split
    · rename_i same
      subst same
      have fresh : (k, w) ∉ d.items := fun member => absent (List.mem_map.mpr ⟨_, member, rfl⟩)
      simp [fresh, eq_comm]
    · rename_i other
      rw [get?_eq_some, or_iff_left fun own => other own.1.symm]

theorem keys_set (d : Dict κ ν) (k : κ) (v : ν) :
    (d.set k v).keys = if k ∈ d.keys then d.keys else d.keys ++ [k] := by
  unfold set
  split
  · exact keys_map_replace d.items
  · exact List.map_append

/-- Setting the value that is there changes nothing. -/
theorem set_eq_self (there : d.get? k = some v) : d.set k v = d := by
  have present : k ∈ d.keys := mem_keys.mpr ⟨v, there⟩
  apply Dict.ext
  rw [set, dif_pos present]
  refine (List.map_congr_left fun e member => ?_).trans (List.map_id _)
  unfold replace
  split
  · rename_i own
    have same := List.inj_on_of_nodup_map d.nodup member (get?_eq_some.mp there) own
    rw [same]
    rfl
  · rfl

/-- Setting keys that are all different, in turn. -/
theorem items_foldl_set {entries : List (κ × ν)} (nodup : (entries.map Prod.fst).Nodup) :
    (entries.foldl (fun d e => d.set e.1 e.2) empty).items = entries := by
  induction entries using List.reverseRecOn with
  | nil => rfl
  | append_singleton entries e ih =>
      rw [List.map_append] at nodup
      obtain ⟨before, -, apart⟩ := List.nodup_append'.mp nodup
      have start := ih before
      have absent : e.1 ∉ (entries.foldl (fun d e => d.set e.1 e.2) (empty : Dict κ ν)).keys := by
        rw [keys, start]
        exact fun member => apart member (List.mem_map.mpr ⟨e, List.mem_cons_self, rfl⟩)
      rw [List.foldl_append, List.foldl_cons, List.foldl_nil, set, dif_neg absent]
      exact congrArg (· ++ [e]) start

theorem mem_items_set {e : κ × ν} (member : e ∈ (d.set k v).items) :
    e ∈ d.items ∨ e = (k, v) := by
  unfold set at member
  split at member
  · obtain ⟨old, inside, rfl⟩ := List.mem_map.mp member
    unfold replace
    split
    · rename_i own
      exact .inr (by rw [own])
    · exact .inl inside
  · exact (List.mem_append.mp member).imp_right List.mem_singleton.mp

/-- Setting keys in turn puts in only what is given. -/
theorem mem_items_foldl_set {e : κ × ν} {entries : List (κ × ν)}
    (member : e ∈ (entries.foldl (fun d e => d.set e.1 e.2) d).items) :
    e ∈ d.items ∨ e ∈ entries := by
  induction entries generalizing d with
  | nil => exact .inl member
  | cons entry entries ih =>
      rcases ih member with earlier | later
      · refine (mem_items_set earlier).imp_right fun own => ?_
        rw [own]
        exact List.mem_cons_self
      · exact .inr (List.mem_cons_of_mem entry later)

/-- Which keys there are then depends only on the keys that were set. -/
theorem keys_foldl_set_congr {d' : Dict κ ν} {entries entries' : List (κ × ν)}
    (start : d.keys = d'.keys) (same : entries.map Prod.fst = entries'.map Prod.fst) :
    (entries.foldl (fun d e => d.set e.1 e.2) d).keys =
      (entries'.foldl (fun d e => d.set e.1 e.2) d').keys := by
  induction entries generalizing d d' entries' with
  | nil =>
      rw [List.map_nil] at same
      rw [List.map_eq_nil_iff.mp same.symm]
      exact start
  | cons e entries ih =>
      cases entries' with
      | nil => cases same
      | cons e' entries' =>
          obtain ⟨key, rest⟩ := List.cons.inj same
          have next : (d.set e.1 e.2).keys = (d'.set e'.1 e'.2).keys := by
            rw [keys_set, keys_set, start, key]
          rw [List.foldl_cons, List.foldl_cons]
          exact ih next rest

/-! ## A class of keys -/

/-- The entries whose key is in a class. -/
def filterKeys (p : κ → Bool) (d : Dict κ ν) : Dict κ ν :=
  ⟨d.items.filter fun e => p e.1, d.nodup.sublist (List.filter_sublist.map Prod.fst)⟩

omit [DecidableEq κ] in
theorem mem_keys_filterKeys {p : κ → Bool} (d : Dict κ ν) :
    k ∈ (d.filterKeys p).keys ↔ k ∈ d.keys ∧ p k = true := by
  simp only [keys, filterKeys, List.mem_map, List.mem_filter]
  refine ⟨?_, ?_⟩
  · intro found
    rcases found with ⟨e, ⟨member, inClass⟩, rfl⟩
    exact ⟨⟨e, member, rfl⟩, inClass⟩
  · intro found
    rcases found with ⟨⟨e, member, rfl⟩, inClass⟩
    exact ⟨e, ⟨member, inClass⟩, rfl⟩

theorem get?_filterKeys {p : κ → Bool} (inClass : p k = true) :
    (d.filterKeys p).get? k = d.get? k := by
  apply Option.ext
  intro v
  rw [get?_eq_some, get?_eq_some, filterKeys, List.mem_filter, and_iff_left]
  exact inClass

theorem filterKeys_set (p : κ → Bool) (d : Dict κ ν) (k : κ) (v : ν) :
    (d.set k v).filterKeys p = if p k then (d.filterKeys p).set k v else d.filterKeys p := by
  apply Dict.ext
  unfold set
  by_cases present : k ∈ d.keys
  · rw [dif_pos present]
    have commute : (d.items.map (replace k v)).filter (fun e => p e.1) =
        (d.items.filter fun e => p e.1).map (replace k v) := by
      rw [List.filter_map]
      congr 1
      apply List.filter_congr
      intro e _
      rw [Function.comp_apply, replace_fst]
    split
    · rename_i inClass
      rw [dif_pos ((mem_keys_filterKeys d).mpr ⟨present, inClass⟩)]
      exact commute
    · rename_i outside
      refine commute.trans ((List.map_congr_left fun e member => ?_).trans (List.map_id _))
      have other : e.1 ≠ k := by
        intro own
        exact outside (own ▸ (List.mem_filter.mp member).2)
      rw [replace, if_neg other]
      rfl
  · rw [dif_neg present]
    split
    · rename_i inClass
      rw [dif_neg fun there => present ((mem_keys_filterKeys d).mp there).1]
      simp only [filterKeys, List.filter_append]
      rw [List.filter_cons_of_pos (by exact inClass), List.filter_nil]
    · rename_i outside
      simp only [filterKeys, List.filter_append]
      rw [List.filter_cons_of_neg (by exact outside), List.filter_nil, List.append_nil]

/-! ## Merging a list into a dictionary -/

/-- Merges each element of a list into the entry of its key. -/
def foldBy (key : α → κ) (merge : Option ν → α → ν) (d : Dict κ ν) (xs : List α) : Dict κ ν :=
  xs.foldl (fun d x => d.set (key x) (merge (d.get? (key x)) x)) d

section FoldBy

variable {key : α → κ} {merge : Option ν → α → ν} {xs ys : List α}

@[simp] theorem foldBy_nil : foldBy key merge d [] = d := rfl

theorem foldBy_cons (x : α) : foldBy key merge d (x :: xs) =
    foldBy key merge (d.set (key x) (merge (d.get? (key x)) x)) xs := rfl

theorem foldBy_append :
    foldBy key merge d (xs ++ ys) = foldBy key merge (foldBy key merge d xs) ys :=
  List.foldl_append

/-- An entry is the fold over the elements with its key. -/
theorem get?_foldBy : (foldBy key merge d xs).get? k =
    (xs.filter fun x => key x = k).foldl (fun acc x => some (merge acc x)) (d.get? k) := by
  induction xs generalizing d with
  | nil => rfl
  | cons x xs ih =>
      rw [foldBy_cons, ih, get?_set]
      by_cases own : key x = k
      · rw [if_pos own, List.filter_cons_of_pos (by simp [own]), own]
        rfl
      · rw [if_neg own, List.filter_cons_of_neg (by simp [own])]

theorem mem_keys_foldBy : k ∈ (foldBy key merge d xs).keys ↔ k ∈ d.keys ∨ k ∈ xs.map key := by
  induction xs generalizing d with
  | nil => simp
  | cons x xs ih =>
      rw [foldBy_cons, ih, keys_set, List.map_cons, List.mem_cons]
      split
      · rename_i present
        refine ⟨?_, ?_⟩
        · intro member
          exact member.imp_right .inr
        · intro member
          rcases member with old | rfl | new
          · exact .inl old
          · exact .inl present
          · exact .inr new
      · rw [List.mem_append, List.mem_singleton, or_assoc]

/-- The keys stand in the order of their first elements. -/
theorem keys_foldBy_ordered [BEq κ] [LawfulBEq κ] :
    (foldBy key merge empty xs).keys.Pairwise fun k k' =>
      (xs.map key).idxOf k < (xs.map key).idxOf k' := by
  induction xs using List.reverseRecOn with
  | nil => exact List.Pairwise.nil
  | append_singleton xs x ih =>
      have older : ∀ k ∈ (foldBy key merge (empty : Dict κ ν) xs).keys, k ∈ xs.map key := by
        intro k member
        simpa [empty, keys] using mem_keys_foldBy.mp member
      have kept : (foldBy key merge (empty : Dict κ ν) xs).keys.Pairwise fun k k' =>
          ((xs ++ [x]).map key).idxOf k < ((xs ++ [x]).map key).idxOf k' := by
        refine ih.imp_of_mem fun {k k'} member member' less => ?_
        rw [List.map_append, List.idxOf_append_of_mem (older k member),
          List.idxOf_append_of_mem (older k' member')]
        exact less
      rw [foldBy_append, foldBy_cons, foldBy_nil, keys_set]
      split
      · exact kept
      · rename_i absent
        have fresh : key x ∉ xs.map key := fun member =>
          absent (mem_keys_foldBy.mpr (.inr member))
        refine List.pairwise_append.mpr ⟨kept, List.pairwise_singleton _ _, ?_⟩
        intro k member k' own
        rw [List.mem_singleton.mp own, List.map_append,
          List.idxOf_append_of_mem (older k member), List.idxOf_append_of_notMem fresh]
        exact Nat.lt_of_lt_of_le (List.idxOf_lt_length_iff.mpr (older k member))
          (Nat.le_add_right _ _)

/-- A class of keys depends on the elements of that class alone. -/
theorem filterKeys_foldBy (p : κ → Bool) : (foldBy key merge d xs).filterKeys p =
    foldBy key merge (d.filterKeys p) (xs.filter fun x => p (key x)) := by
  induction xs generalizing d with
  | nil => rfl
  | cons x xs ih =>
      rw [foldBy_cons, ih, filterKeys_set]
      by_cases inClass : p (key x) = true
      · rw [if_pos inClass, List.filter_cons_of_pos (by exact inClass), ← get?_filterKeys inClass]
        rfl
      · rw [if_neg inClass, List.filter_cons_of_neg (by exact inClass)]

end FoldBy

/-- Files an element that has a key, in the place of an earlier one with that key. -/
def file (key : α → Option κ) (value : α → ν) (d : Dict κ ν) (x : α) : Dict κ ν :=
  match key x with
  | none => d
  | some k => d.set k (value x)

theorem get?_file {key : α → Option κ} {value : α → ν} {x : α} : (file key value d x).get? k =
    if key x = some k then some (value x) else d.get? k := by
  unfold file
  cases own : key x with
  | none => rw [if_neg (by simp)]
  | some k' =>
      dsimp only
      rw [get?_set]
      simp only [Option.some.injEq]

theorem get?_foldl_file {key : α → Option κ} {value : α → ν} {xs : List α} :
    (xs.foldl (file key value) empty).get? k =
      ((xs.filter fun x => key x = some k).getLast?).map value := by
  induction xs using List.reverseRecOn with
  | nil => rfl
  | append_singleton xs x ih =>
      rw [List.foldl_append, List.filter_append, List.foldl_cons, List.foldl_nil, get?_file]
      split
      · rename_i own
        rw [List.filter_cons_of_pos (by simp [own]), List.filter_nil, List.getLast?_concat]
        rfl
      · rename_i other
        rw [List.filter_cons_of_neg (by simp [other]), List.filter_nil, List.append_nil, ih]

/-! ## Values that are elements -/

/-- Each value has the key it is filed under. -/
def Filed (key : α → κ) (d : Dict κ α) : Prop := ∀ e ∈ d.items, key e.2 = e.1

/-- Merging takes one of the two elements it is given. -/
def Selects (merge : Option α → α → α) : Prop :=
  ∀ acc x, merge acc x = x ∨ acc = some (merge acc x)

section Values

variable {key : α → κ} {merge : Option α → α → α} {d : Dict κ α} {xs ys : List α}

theorem Filed.set (filed : Filed key d) {x : α} (own : key x = k) : Filed key (d.set k x) := by
  intro e member
  rcases eq_or_ne e.1 k with same | other
  · have there : (d.set k x).get? k = some e.2 := get?_eq_some.mpr (same ▸ member)
    rw [get?_set, if_pos rfl, Option.some.injEq] at there
    rw [← there, own, same]
  · have there : (d.set k x).get? e.1 = some e.2 := get?_eq_some.mpr member
    rw [get?_set, if_neg other.symm, get?_eq_some] at there
    exact filed e there

theorem Filed.foldBy (selects : Selects merge) (filed : Filed key d) :
    Filed key (foldBy key merge d xs) := by
  induction xs generalizing d with
  | nil => exact filed
  | cons x xs ih =>
      apply ih
      apply filed.set
      rcases selects (d.get? (key x)) x with new | old
      · rw [new]
      · exact filed _ (get?_eq_some.mp old)

theorem filed_foldBy (selects : Selects merge) : Filed key (Dict.foldBy key merge empty xs) := by
  apply Filed.foldBy selects
  intro e member
  cases member

/-- Merging the values of a dictionary in their order gives the dictionary back. -/
theorem foldBy_values (fresh : ∀ x, merge none x = x) (filed : Filed key d) :
    foldBy key merge empty d.values = d := by
  have all : ∀ items : List (κ × α), (items.map Prod.fst).Nodup → (∀ e ∈ items, key e.2 = e.1) →
      (foldBy key merge empty (items.map Prod.snd)).items = items := by
    intro items
    induction items using List.reverseRecOn with
    | nil => exact fun _ _ => rfl
    | append_singleton items e ih =>
        intro nodup filed
        rw [List.map_append] at nodup
        obtain ⟨before, -, apart⟩ := List.nodup_append'.mp nodup
        have start := ih before fun e' member => filed e' (List.mem_append_left _ member)
        have own : key e.2 = e.1 := filed e (List.mem_append_right _ List.mem_cons_self)
        have absent : e.1 ∉ (foldBy key merge empty (items.map Prod.snd)).keys := by
          rw [keys, start]
          exact fun member => apart member (List.mem_map.mpr ⟨e, List.mem_cons_self, rfl⟩)
        rw [List.map_append, foldBy_append, List.map_singleton, foldBy_cons, foldBy_nil, own,
          get?_eq_none.mpr absent, fresh, set, dif_neg absent]
        exact congrArg (· ++ [e]) start
  exact Dict.ext (all d.items d.nodup filed)

omit [DecidableEq κ] in
theorem filter_values (filed : Filed key d) (p : κ → Bool) :
    (d.values.filter fun x => p (key x)) = (d.filterKeys p).values := by
  rw [values, List.filter_map, values, filterKeys]
  congr 1
  apply List.filter_congr
  intro e member
  rw [Function.comp_apply, filed e member]

/-- **Sorted views are incremental.** Sorting by something the key determines, the
values after `xs ++ ys` are those after the sorted values of `xs` and then `ys`, in
the same order. -/
theorem sortBy_foldBy_append {β : Type*} [LinearOrder β] (selects : Selects merge)
    (fresh : ∀ x, merge none x = x) {f : α → β} {g : κ → β} (byKey : ∀ x, f x = g (key x)) :
    sortBy f (foldBy key merge empty (xs ++ ys)).values =
      sortBy f (foldBy key merge empty
        (sortBy f (foldBy key merge empty xs).values ++ ys)).values := by
  apply sortBy_congr
  intro b
  -- with the elements of one value only, the sorted values are in their old order
  have classOf : ∀ zs : List α, (foldBy key merge empty zs).values.filter (fun x => f x = b) =
      (foldBy key merge empty (zs.filter fun x => f x = b)).values := by
    intro zs
    have filed : Filed key (Dict.foldBy key merge empty zs) := filed_foldBy selects
    have byKeys := filter_values filed fun k => decide (g k = b)
    rw [filterKeys_foldBy, show (empty : Dict κ α).filterKeys _ = empty from rfl] at byKeys
    simpa only [byKey] using byKeys
  rw [classOf, classOf, List.filter_append, List.filter_append, filter_sortBy, classOf,
    foldBy_append, foldBy_append, foldBy_values fresh (filed_foldBy selects)]

end Values

/-! ## Keeping the newest -/

section Newest

variable {β : Type*} [LinearOrder β] {time : α → β}

/-- Of two elements the one with the later time, of two with one time the second. -/
def newer (time : α → β) (acc : Option α) (x : α) : α :=
  match acc with
  | none => x
  | some prev => if time prev ≤ time x then x else prev

theorem selects_newer : Selects (newer time) := by
  intro acc x
  cases acc with
  | none => exact .inl rfl
  | some prev =>
      unfold newer
      dsimp only
      split
      · exact .inl rfl
      · exact .inr rfl

/-- What is kept of a list is its last element with the greatest time. -/
theorem foldl_newer {xs : List α} {r : α}
    (kept : xs.foldl (fun acc x => some (newer time acc x)) none = some r) :
    ∃ before after, xs = before ++ r :: after ∧ (∀ x ∈ before, time x ≤ time r) ∧
      ∀ x ∈ after, time x < time r := by
  induction xs using List.reverseRecOn generalizing r with
  | nil => cases kept
  | append_singleton xs x ih =>
      rw [List.foldl_append, List.foldl_cons, List.foldl_nil, Option.some.injEq] at kept
      cases old : xs.foldl (fun acc x => some (newer time acc x)) none with
      | none =>
          have empty : xs = [] := by
            cases xs using List.reverseRecOn with
            | nil => rfl
            | append_singleton xs y =>
                rw [List.foldl_append] at old
                cases old
          rw [old] at kept
          subst empty
          cases kept
          exact ⟨[], [], rfl, by simp, by simp⟩
      | some prev =>
          obtain ⟨before, after, rfl, earlier, later⟩ := ih old
          rw [old] at kept
          unfold newer at kept
          dsimp only at kept
          split at kept
          · rename_i le
            subst kept
            refine ⟨before ++ prev :: after, [], rfl, ?_, by simp⟩
            intro y member
            rcases List.mem_append.mp member with inBefore | inRest
            · exact (earlier y inBefore).trans le
            · rcases List.mem_cons.mp inRest with rfl | inAfter
              · exact le
              · exact (later y inAfter).le.trans le
          · rename_i less
            subst kept
            refine ⟨before, after ++ [x], by simp, earlier, ?_⟩
            intro y member
            rcases List.mem_append.mp member with old' | own
            · exact later y old'
            · rw [List.mem_singleton.mp own]
              exact not_le.mp less

/-- Elements in the order of their times replace each other, and an earlier one. -/
theorem foldl_newer_of_ordered {xs : List α} {acc : Option α}
    (ordered : xs.Pairwise fun x y => time x ≤ time y)
    (later : ∀ prev, acc = some prev → ∀ x ∈ xs, time prev ≤ time x) :
    xs.foldl (fun acc x => some (newer time acc x)) acc = xs.getLast?.or acc := by
  induction xs generalizing acc with
  | nil => rfl
  | cons x xs ih =>
      rw [List.pairwise_cons] at ordered
      have replaced : newer time acc x = x := by
        cases acc with
        | none => rfl
        | some prev => exact if_pos (later prev rfl x List.mem_cons_self)
      rw [List.foldl_cons, replaced, ih ordered.2, List.getLast?_cons]
      · cases xs.getLast? <;> rfl
      · intro prev own y member
        cases own
        exact ordered.1 y member

/-- What is filed last, and no earlier than what was there, is kept. -/
theorem get?_foldBy_newer {key : α → κ} {xs more : List α}
    (ordered : more.Pairwise fun x y => time x ≤ time y)
    (later : ∀ x ∈ xs, ∀ y ∈ more, time x ≤ time y) :
    (foldBy key (newer time) .empty (xs ++ more)).get? k =
      (more.filter fun y => key y = k).getLast?.or
        ((foldBy key (newer time) .empty xs).get? k) := by
  rw [get?_foldBy, get?_foldBy, List.filter_append, List.foldl_append]
  apply foldl_newer_of_ordered (ordered.sublist List.filter_sublist)
  intro prev kept y member
  obtain ⟨before, after, split, -, -⟩ := foldl_newer kept
  have inside : prev ∈ xs.filter fun x => key x = k := by
    rw [split]
    exact List.mem_append_right _ List.mem_cons_self
  exact later prev (List.mem_filter.mp inside).1 y (List.mem_filter.mp member).1

end Newest

end Dict

end MiddlewareBench
