import Mathlib.Data.List.Induction
import MiddlewareBench.Lib.Transducer

/-!
# In-order recognition of keyed messages

A message with key `k` travels as pieces numbered `0, 1, …`, each of which
also carries how many pieces its message has; piece `0` carries a tag for the
whole message. A receiver that keeps no pieces can still tell when a message
has arrived intact and in order: it remembers the key it follows, the index it
expects next and the tag, and gives up at the first piece that does not fit.

`ingest` is that receiver. `records_after` says what its state means, and
`output_eq_some_iff` that it reports a message exactly when the pieces of a
whole message (`IsWhole`) are the last ones it was shown. `outputs_whole` and
`outputs_lossy` are the two cases a sender that numbers its pieces in order
produces: nothing of a message lost, or something.
-/

namespace MiddlewareBench.InOrder

open Transducer

/-- Piece `index` of the `count` pieces of a message. The tag means something
on piece `0` only. -/
@[ext] structure Piece (κ τ : Type*) where
  key : κ
  index : Nat
  count : Nat
  tag : τ

variable {κ τ : Type*}

/-! ## What a message looks like -/

/-- `ps` are the first pieces, in order, of a message with this key and tag. -/
structure Begins (k : κ) (t : τ) (ps : List (Piece κ τ)) : Prop where
  key : ∀ p ∈ ps, p.key = k
  index : ps.map Piece.index = List.range ps.length
  tag : ps.head?.map Piece.tag = some t

/-- `ps` begin a message and none of them is its last piece. -/
structure IsOpen (k : κ) (t : τ) (ps : List (Piece κ τ)) : Prop extends Begins k t ps where
  more : ∀ p ∈ ps, p.index + 1 < p.count

/-- `ps` are all pieces of a message, in order: only the last one says that no
further piece follows. -/
structure IsWhole (k : κ) (t : τ) (ps : List (Piece κ τ)) : Prop extends Begins k t ps where
  more : ∀ p ∈ ps.dropLast, p.index + 1 < p.count
  last : ps.getLast?.map Piece.count = some ps.length

theorem begins_concat {k : κ} {t : τ} {qs : List (Piece κ τ)} {p : Piece κ τ} :
    Begins k t (qs ++ [p]) ↔
      p.key = k ∧ p.index = qs.length ∧ (qs = [] ∧ p.tag = t ∨ Begins k t qs) := by
  refine ⟨?_, ?_⟩
  · intro begins
    rcases begins with ⟨key, index, tag⟩
    rw [List.map_append, List.length_append, List.length_singleton, List.range_succ,
      List.map_singleton] at index
    obtain ⟨earlier, own⟩ := List.append_inj' index rfl
    refine ⟨key p (List.mem_append_right _ List.mem_cons_self), List.singleton_inj.mp own, ?_⟩
    cases qs with
    | nil => exact .inl ⟨rfl, Option.some.inj tag⟩
    | cons q qs =>
        exact .inr ⟨fun r member => key r (List.mem_append_left _ member), earlier, tag⟩
  · intro grown
    rcases grown with ⟨ownKey, ownIndex, ⟨rfl, ownTag⟩ | earlier⟩
    · refine ⟨?_, ?_, by simp [ownTag]⟩
      · simp [ownKey]
      · simpa using ownIndex
    · rcases earlier with ⟨key, index, tag⟩
      refine ⟨?_, ?_, ?_⟩
      · intro r member
        rcases List.mem_append.mp member with old | own
        · exact key r old
        · rw [List.mem_singleton.mp own, ownKey]
      · rw [List.map_append, index, List.length_append, List.length_singleton,
          List.range_succ, List.map_singleton, ownIndex]
      · cases qs with
        | nil => cases tag
        | cons q qs => exact tag

theorem not_begins_nil {k : κ} {t : τ} : ¬ Begins k t [] := by
  intro begins
  cases begins.tag

theorem isOpen_concat {k : κ} {t : τ} {qs : List (Piece κ τ)} {p : Piece κ τ} :
    IsOpen k t (qs ++ [p]) ↔
      p.key = k ∧ p.index = qs.length ∧ qs.length + 1 < p.count ∧
        (qs = [] ∧ p.tag = t ∨ IsOpen k t qs) := by
  refine ⟨?_, ?_⟩
  · intro isOpen
    rcases isOpen with ⟨begins, more⟩
    obtain ⟨key, index, earlier⟩ := begins_concat.mp begins
    have own := more p (List.mem_append_right _ List.mem_cons_self)
    refine ⟨key, index, by omega, earlier.imp_right fun old => ⟨old, ?_⟩⟩
    exact fun q member => more q (List.mem_append_left _ member)
  · intro grown
    rcases grown with ⟨key, index, more, earlier⟩
    refine ⟨begins_concat.mpr ⟨key, index, earlier.imp_right IsOpen.toBegins⟩, ?_⟩
    intro q member
    rcases List.mem_append.mp member with old | own
    · rcases earlier with ⟨rfl, -⟩ | isOpen
      · cases old
      · exact isOpen.more q old
    · rw [List.mem_singleton.mp own]
      omega

theorem isWhole_concat {k : κ} {t : τ} {qs : List (Piece κ τ)} {p : Piece κ τ} :
    IsWhole k t (qs ++ [p]) ↔
      p.key = k ∧ p.index = qs.length ∧ p.count = qs.length + 1 ∧
        (qs = [] ∧ p.tag = t ∨ IsOpen k t qs) := by
  refine ⟨?_, ?_⟩
  · intro whole
    rcases whole with ⟨begins, more, last⟩
    obtain ⟨key, index, earlier⟩ := begins_concat.mp begins
    rw [List.dropLast_concat] at more
    rw [List.getLast?_concat, List.length_append, List.length_singleton] at last
    exact ⟨key, index, Option.some.inj last, earlier.imp_right fun old => ⟨old, more⟩⟩
  · intro grown
    rcases grown with ⟨key, index, count, earlier⟩
    refine ⟨begins_concat.mpr ⟨key, index, earlier.imp_right IsOpen.toBegins⟩, ?_, ?_⟩
    · rw [List.dropLast_concat]
      rcases earlier with ⟨rfl, -⟩ | isOpen
      · exact fun q member => nomatch member
      · exact isOpen.more
    · rw [List.getLast?_concat, List.length_append, List.length_singleton, Option.map_some, count]

/-- The pieces of a message of `n`, as a sender numbers them. -/
def pieces (k : κ) (n : Nat) (tag : Nat → τ) (m : Nat) : List (Piece κ τ) :=
  (List.range m).map fun i => ⟨k, i, n, tag i⟩

theorem pieces_succ (k : κ) (n : Nat) (tag : Nat → τ) (m : Nat) :
    pieces k n tag (m + 1) = pieces k n tag m ++ [⟨k, m, n, tag m⟩] := by
  rw [pieces, pieces, List.range_succ, List.map_append, List.map_singleton]

@[simp] theorem length_pieces (k : κ) (n : Nat) (tag : Nat → τ) (m : Nat) :
    (pieces k n tag m).length = m := by
  rw [pieces, List.length_map, List.length_range]

theorem isOpen_pieces (k : κ) {n m : Nat} (tag : Nat → τ) (some' : 0 < m) (short : m < n) :
    IsOpen k (tag 0) (pieces k n tag m) := by
  induction m with
  | zero => exact absurd some' (Nat.lt_irrefl 0)
  | succ m ih =>
      rw [pieces_succ]
      refine isOpen_concat.mpr ⟨rfl, by simp, by simpa using short, ?_⟩
      cases m with
      | zero => exact .inl ⟨rfl, rfl⟩
      | succ m => exact .inr (ih (Nat.succ_pos m) (by omega))

theorem isWhole_pieces (k : κ) {n : Nat} (tag : Nat → τ) (pos : 0 < n) :
    IsWhole k (tag 0) (pieces k n tag n) := by
  obtain ⟨m, rfl⟩ := Nat.exists_eq_succ_of_ne_zero (Nat.pos_iff_ne_zero.mp pos)
  rw [Nat.succ_eq_add_one, pieces_succ]
  refine isWhole_concat.mpr ⟨rfl, by simp, by simp, ?_⟩
  cases m with
  | zero => exact .inl ⟨rfl, rfl⟩
  | succ m => exact .inr (isOpen_pieces k tag (Nat.succ_pos m) (Nat.lt_succ_self _))

/-! ## The receiver -/

/-- The message a receiver follows, and the index it expects next. -/
@[ext] structure Follow (κ τ : Type*) where
  key : κ
  next : Nat
  tag : τ

variable [DecidableEq κ]

/-- Piece `0` of any message is followed from now on, whatever came before. -/
def restart (s : Option (Follow κ τ)) (p : Piece κ τ) : Option (Follow κ τ) :=
  if p.index = 0 then some ⟨p.key, 0, p.tag⟩ else s

/-- The message followed once `p` is seen, when `p` is the piece expected. -/
def follow (s : Option (Follow κ τ)) (p : Piece κ τ) : Option (Follow κ τ) :=
  (restart s p).filter fun f => p.key = f.key ∧ p.index = f.next

/-- Take one piece: the next state, and the message if `p` completed it. -/
def ingest (s : Option (Follow κ τ)) (p : Piece κ τ) : Option (Follow κ τ) × Option (κ × τ) :=
  match follow s p with
  | none => (none, none)
  | some f =>
    if f.next + 1 < p.count then (some { f with next := f.next + 1 }, none)
    else (none, some (f.key, f.tag))

theorem follow_eq_some {s : Option (Follow κ τ)} {p : Piece κ τ} {f : Follow κ τ} :
    follow s p = some f ↔ restart s p = some f ∧ p.key = f.key ∧ p.index = f.next := by
  rw [follow, Option.filter_eq_some_iff, decide_eq_true_iff]

theorem follow_eq_none {s : Option (Follow κ τ)} {p : Piece κ τ} :
    follow s p = none ↔ ∀ f, restart s p = some f → ¬ (p.key = f.key ∧ p.index = f.next) := by
  rw [Option.eq_none_iff_forall_not_mem]
  simp only [Option.mem_def, follow_eq_some, not_and]

/-- A piece that does not fit ends the message followed. -/
theorem ingest_misfit {s : Option (Follow κ τ)} {p : Piece κ τ} (misfit : follow s p = none) :
    ingest s p = (none, none) := by
  rw [ingest, misfit]

/-- A piece that fits and is not the last. -/
theorem ingest_more {s : Option (Follow κ τ)} {p : Piece κ τ} {f : Follow κ τ}
    (followed : follow s p = some f) (more : f.next + 1 < p.count) :
    ingest s p = (some { f with next := f.next + 1 }, none) := by
  rw [ingest, followed]
  exact if_pos more

/-- A piece that fits and is the last. -/
theorem ingest_last {s : Option (Follow κ τ)} {p : Piece κ τ} {f : Follow κ τ}
    (followed : follow s p = some f) (last : p.count ≤ f.next + 1) :
    ingest s p = (none, some (f.key, f.tag)) := by
  rw [ingest, followed]
  exact if_neg (Nat.not_lt.mpr last)

/-! ## What the state means -/

/-- A state records `hist` when it follows exactly the message whose first
pieces are the end of `hist`. -/
def Records (hist : List (Piece κ τ)) (s : Option (Follow κ τ)) : Prop :=
  ∀ f, s = some f ↔ ∃ ps, ps <:+ hist ∧ IsOpen f.key f.tag ps ∧ ps.length = f.next

omit [DecidableEq κ] in
theorem records_nil : Records ([] : List (Piece κ τ)) none := by
  intro f
  refine ⟨?_, ?_⟩
  · intro absent
    cases absent
  · intro recorded
    rcases recorded with ⟨ps, suffix, isOpen, -⟩
    rw [List.suffix_nil.mp suffix] at isOpen
    exact (not_begins_nil isOpen.toBegins).elim

/-- The piece is followed exactly when it extends the message recorded so far,
or starts one. -/
theorem Records.follow_iff {hist : List (Piece κ τ)} {s : Option (Follow κ τ)}
    (records : Records hist s) {p : Piece κ τ} {f : Follow κ τ} :
    follow s p = some f ↔
      ∃ qs, qs <:+ hist ∧ p.key = f.key ∧ p.index = qs.length ∧ f.next = qs.length ∧
        (qs = [] ∧ p.tag = f.tag ∨ IsOpen f.key f.tag qs) := by
  rw [follow_eq_some, restart]
  by_cases first : p.index = 0
  · rw [if_pos first, Option.some.injEq]
    refine ⟨?_, ?_⟩
    · intro restarted
      rcases restarted with ⟨rfl, -, -⟩
      exact ⟨[], List.nil_suffix, rfl, first, rfl, .inl ⟨rfl, rfl⟩⟩
    · intro recorded
      rcases recorded with ⟨qs, -, key, index, next, rest⟩
      have empty : qs = [] := List.length_eq_zero_iff.mp (index.symm.trans first)
      subst empty
      rcases rest with ⟨-, tag⟩ | isOpen
      · exact ⟨by ext <;> simp [key, next, tag], key, index.trans next.symm⟩
      · exact (not_begins_nil isOpen.toBegins).elim
  · rw [if_neg first, records f]
    refine ⟨?_, ?_⟩
    · intro followed
      rcases followed with ⟨⟨qs, suffix, isOpen, length⟩, key, index⟩
      exact ⟨qs, suffix, key, index.trans length.symm, length.symm, .inr isOpen⟩
    · intro recorded
      rcases recorded with ⟨qs, suffix, key, index, next, ⟨rfl, -⟩ | isOpen⟩
      · exact (first index).elim
      · exact ⟨⟨qs, suffix, isOpen, next.symm⟩, key, index.trans next.symm⟩

/-- One piece keeps the record. -/
theorem Records.ingest {hist : List (Piece κ τ)} {s : Option (Follow κ τ)}
    (records : Records hist s) (p : Piece κ τ) :
    Records (hist ++ [p]) (ingest s p).1 := by
  intro g
  have step : (InOrder.ingest s p).1 = some g ↔
      ∃ f, follow s p = some f ∧ f.next + 1 < p.count ∧ g = { f with next := f.next + 1 } := by
    cases followed : follow s p with
    | none => simp [ingest_misfit followed]
    | some f =>
        rcases Nat.lt_or_ge (f.next + 1) p.count with more | last
        · simp [ingest_more followed more, more, eq_comm]
        · simp [ingest_last followed last, Nat.not_lt.mpr last]
  rw [step]
  refine ⟨?_, ?_⟩
  · intro stepped
    rcases stepped with ⟨f, followed, more, rfl⟩
    obtain ⟨qs, suffix, key, index, next, rest⟩ := records.follow_iff.mp followed
    refine ⟨qs ++ [p], List.suffix_concat_iff.mpr (.inr ⟨qs, rfl, suffix⟩), ?_, ?_⟩
    · exact isOpen_concat.mpr ⟨key, index, next ▸ more, rest⟩
    · rw [List.length_append, List.length_singleton, next]
  · intro recorded
    rcases recorded with ⟨ps, suffix, isOpen, length⟩
    rcases List.suffix_concat_iff.mp suffix with rfl | ⟨qs, rfl, earlier⟩
    · exact (not_begins_nil isOpen.toBegins).elim
    · obtain ⟨key, index, more, rest⟩ := isOpen_concat.mp isOpen
      rw [List.length_append, List.length_singleton] at length
      refine ⟨⟨g.key, qs.length, g.tag⟩, ?_, more, by ext <;> simp [length]⟩
      exact records.follow_iff.mpr ⟨qs, earlier, key, index, rfl, rest⟩

/-- **The state of a fresh receiver.** It follows a message exactly when the
last pieces shown begin that message and leave it unfinished. -/
theorem records_after (hist : List (Piece κ τ)) :
    Records hist (after InOrder.ingest none hist) := by
  induction hist using List.reverseRecOn with
  | nil => exact records_nil
  | append_singleton hist p ih =>
      rw [after_concat]
      exact ih.ingest p

/-! ## What the outputs mean -/

theorem ingest_output_eq_some {s : Option (Follow κ τ)} {p : Piece κ τ} {k : κ} {t : τ} :
    (ingest s p).2 = some (k, t) ↔
      ∃ f, follow s p = some f ∧ p.count ≤ f.next + 1 ∧ f.key = k ∧ f.tag = t := by
  cases followed : follow s p with
  | none => simp [ingest_misfit followed]
  | some f =>
      rcases Nat.lt_or_ge (f.next + 1) p.count with more | last
      · simp [ingest_more followed more, Nat.not_le.mpr more]
      · simp [ingest_last followed last, last]

/-- **The reports of a fresh receiver.** It reports a message at a piece
exactly when that piece ends a whole message. -/
theorem output_eq_some_iff {hist : List (Piece κ τ)} {p : Piece κ τ}
    (valid : p.index < p.count) {k : κ} {t : τ} :
    (ingest (after ingest none hist) p).2 = some (k, t) ↔
      ∃ ps, ps <:+ hist ++ [p] ∧ IsWhole k t ps := by
  rw [ingest_output_eq_some]
  refine ⟨?_, ?_⟩
  · intro reported
    rcases reported with ⟨f, followed, done, rfl, rfl⟩
    obtain ⟨qs, suffix, key, index, next, rest⟩ := (records_after hist).follow_iff.mp followed
    refine ⟨qs ++ [p], List.suffix_concat_iff.mpr (.inr ⟨qs, rfl, suffix⟩), ?_⟩
    exact isWhole_concat.mpr ⟨key, index, by omega, rest⟩
  · intro arrived
    rcases arrived with ⟨ps, suffix, whole⟩
    rcases List.suffix_concat_iff.mp suffix with rfl | ⟨qs, rfl, earlier⟩
    · exact (not_begins_nil whole.toBegins).elim
    · obtain ⟨key, index, count, rest⟩ := isWhole_concat.mp whole
      refine ⟨⟨k, qs.length, t⟩, ?_, Nat.le_of_eq count, rfl, rfl⟩
      exact (records_after hist).follow_iff.mpr ⟨qs, earlier, key, index, rfl, rest⟩

/-- A piece that completes a message is the last one of it. -/
theorem ingest_complete {s : Option (Follow κ τ)} {p : Piece κ τ} (valid : p.index < p.count)
    {k : κ} {t : τ} (complete : (ingest s p).2 = some (k, t)) :
    p.key = k ∧ p.index + 1 = p.count := by
  obtain ⟨f, followed, done, rfl, -⟩ := ingest_output_eq_some.mp complete
  obtain ⟨-, key, index⟩ := follow_eq_some.mp followed
  exact ⟨key, by omega⟩

/-! ## Messages sent in order -/

/-- The next piece of a message the receiver follows is followed too, and so is
the first piece of any. -/
theorem follow_next {s : Option (Follow κ τ)} {k : κ} {t : τ} {qs : List (Piece κ τ)}
    {p : Piece κ τ} (followed : IsOpen k t qs → s = some ⟨k, qs.length, t⟩)
    (key : p.key = k) (index : p.index = qs.length)
    (rest : qs = [] ∧ p.tag = t ∨ IsOpen k t qs) :
    follow s p = some ⟨k, qs.length, t⟩ := by
  refine follow_eq_some.mpr ⟨?_, key, index⟩
  rcases rest with ⟨rfl, tag⟩ | isOpen
  · rw [List.length_nil] at index ⊢
    rw [restart, if_pos index, key, tag]
  · have later : p.index ≠ 0 := by
      intro first
      have empty := List.length_eq_zero_iff.mp (index.symm.trans first)
      exact not_begins_nil (empty ▸ isOpen.toBegins)
    rw [restart, if_neg later, followed isOpen]

/-- From any state, the first pieces of a message leave the receiver following
it. -/
theorem after_isOpen (s : Option (Follow κ τ)) {k : κ} {t : τ} {ps : List (Piece κ τ)}
    (isOpen : IsOpen k t ps) : after ingest s ps = some ⟨k, ps.length, t⟩ := by
  induction ps using List.reverseRecOn with
  | nil => exact (not_begins_nil isOpen.toBegins).elim
  | append_singleton qs p ih =>
      obtain ⟨key, index, more, rest⟩ := isOpen_concat.mp isOpen
      rw [after_concat, ingest_more (follow_next ih key index rest) more, List.length_append,
        List.length_singleton]

/-- From any state, the first pieces of a message are answered by no report. -/
theorem outputs_isOpen (s : Option (Follow κ τ)) {k : κ} {t : τ} {ps : List (Piece κ τ)}
    (isOpen : IsOpen k t ps) : outputs ingest s ps = List.replicate ps.length none := by
  induction ps using List.reverseRecOn with
  | nil => rfl
  | append_singleton qs p ih =>
      obtain ⟨key, index, more, rest⟩ := isOpen_concat.mp isOpen
      have quiet : outputs ingest s qs = List.replicate qs.length none := by
        rcases rest with ⟨rfl, -⟩ | earlier
        · rfl
        · exact ih earlier
      rw [outputs_concat, quiet, ingest_more (follow_next (after_isOpen s) key index rest) more,
        List.length_append, List.length_singleton, List.replicate_succ']

/-- From any state, all pieces of a message in order are answered by its
report at the last one, and by nothing before. -/
theorem outputs_whole (s : Option (Follow κ τ)) {k : κ} {t : τ} {ps : List (Piece κ τ)}
    (whole : IsWhole k t ps) :
    outputs ingest s ps = List.replicate (ps.length - 1) none ++ [some (k, t)] := by
  rcases List.eq_nil_or_concat ps with rfl | ⟨qs, p, rfl⟩
  · exact (not_begins_nil whole.toBegins).elim
  · rw [List.concat_eq_append] at whole ⊢
    obtain ⟨key, index, count, rest⟩ := isWhole_concat.mp whole
    have quiet : outputs ingest s qs = List.replicate qs.length none := by
      rcases rest with ⟨rfl, -⟩ | earlier
      · rfl
      · exact outputs_isOpen s earlier
    rw [outputs_concat, quiet,
      ingest_last (follow_next (after_isOpen s) key index rest) (Nat.le_of_eq count),
      List.length_append, List.length_singleton, Nat.add_sub_cancel]

omit [DecidableEq κ] in
/-- The piece that says it is the last one of its message is. -/
theorem IsWhole.length_eq_of_last {k : κ} {t : τ} {ps : List (Piece κ τ)}
    (whole : IsWhole k t ps) {p : Piece κ τ} (member : p ∈ ps) (last : p.index + 1 = p.count) :
    ps.length = p.count := by
  rcases List.eq_nil_or_concat ps with rfl | ⟨qs, q, rfl⟩
  · cases member
  · rw [List.concat_eq_append] at whole member ⊢
    rcases List.mem_append.mp member with earlier | own
    · have more := whole.more p (by rw [List.dropLast_concat]; exact earlier)
      omega
    · obtain ⟨-, -, count, -⟩ := isWhole_concat.mp whole
      rw [List.mem_singleton.mp own, count, List.length_append, List.length_singleton]

/-- A suffix all of whose elements satisfy `P` does not reach into a part where
none does. -/
theorem suffix_of_suffix_append {α : Type*} {P : α → Prop} {xs left right : List α}
    (suffix : xs <:+ left ++ right) (all : ∀ x ∈ xs, P x) (never : ∀ x ∈ left, ¬ P x) :
    xs <:+ right := by
  rcases List.suffix_or_suffix_of_suffix suffix (List.suffix_append left right) with
    inside | ⟨extra, rfl⟩
  · exact inside
  · rcases suffix with ⟨before, covers⟩
    rw [← List.append_assoc] at covers
    have extraIn := List.append_cancel_right covers
    cases extra with
    | nil => exact List.suffix_refl right
    | cons x extra =>
        refine (never x ?_ (all x (List.mem_append_left _ List.mem_cons_self))).elim
        rw [← extraIn]
        exact List.mem_append_right _ List.mem_cons_self

/-- A message that lost a piece on an in-order channel is not reported, whatever
messages with other keys came before. -/
theorem outputs_lossy {hist ps sent : List (Piece κ τ)} {k : κ} {t : τ}
    (whole : IsWhole k t sent) (valid : ∀ p ∈ sent, p.index < p.count)
    (lossy : ps.Sublist sent) (lost : ps ≠ sent) (others : ∀ p ∈ hist, p.key ≠ k) :
    ∀ report ∈ outputs ingest (after ingest none hist) ps, report = none := by
  intro report member
  obtain ⟨before, p, rest, rfl, rfl⟩ := mem_outputs.mp member
  have sentP : p ∈ sent := lossy.subset (List.mem_append_right _ List.mem_cons_self)
  by_contra reported
  obtain ⟨⟨k', t'⟩, output⟩ := Option.ne_none_iff_exists'.mp reported
  obtain ⟨ownKey, last⟩ := ingest_complete (valid p sentP) output
  have sameKey : k' = k := ownKey.symm.trans (whole.key p sentP)
  subst sameKey
  rw [← after_append] at output
  obtain ⟨qs, suffix, complete⟩ := (output_eq_some_iff (valid p sentP)).mp output
  -- the reported run has key `k` throughout, so all of it arrived after `hist`
  rw [List.append_assoc] at suffix
  have within := suffix_of_suffix_append suffix complete.key others
  have ownP : p ∈ qs := by
    rcases List.suffix_concat_iff.mp within with rfl | ⟨earlier, rfl, -⟩
    · exact (not_begins_nil complete.toBegins).elim
    · exact List.mem_append_right _ List.mem_cons_self
  have runLength := complete.length_eq_of_last ownP last
  have sentLength := whole.length_eq_of_last sentP last
  have short := within.length_le
  refine lost (lossy.eq_of_length_le ?_)
  simp only [List.length_append, List.length_cons, List.length_nil] at short ⊢
  omega

end MiddlewareBench.InOrder
