import Mathlib.Data.List.Basic

/-!
# Framed streams

A stream carries words and knows nothing of messages: a writer writes a message
word by word, a reader takes as many words as it needs and waits if they are
not there yet. A `Reader` is a partial state transformer on the words that have
arrived; `Extends` says that words that arrive later do not change what it has
read.

`Carries` relates a stream to the messages on it, the one being written
included. As long as writers take turns, each one begins after the last one has
finished, what is read is the first message (`Carries.recv`).
-/

namespace Wire

variable {W M α β : Type}

/-! ## Readers -/

/-- A reader takes words from the front; `none` where it would wait. -/
abbrev Reader (W : Type) : Type → Type := StateT (List W) Option

namespace Reader

/-- The next word. -/
def word : Reader W W
  | [] => none
  | w :: ws => some (w, ws)

/-- The next `n` words. -/
def words (n : Nat) : Reader W (List W) := fun ws =>
  if n ≤ ws.length then some (ws.take n, ws.drop n) else none

@[simp]
theorem word_cons (w : W) (ws : List W) : word (w :: ws) = some (w, ws) := rfl

theorem words_append {n : Nat} {ws : List W} (h : ws.length = n) (more : List W) :
    words n (ws ++ more) = some (ws, more) := by
  subst h
  simp [words]

theorem length_of_words {n : Nat} {ws ws' rest : List W} (h : words n ws = some (ws', rest)) :
    ws'.length = n := by
  unfold words at h
  split at h
  case isFalse => cases h
  case isTrue hle =>
    obtain ⟨rfl, -⟩ := Prod.mk.inj (Option.some.inj h)
    rw [List.length_take, Nat.min_eq_left hle]

theorem bind_eq_some {r : Reader W α} {f : α → Reader W β} {ws : List W} {res : β × List W} :
    (r >>= f) ws = some res ↔ ∃ a ws', r ws = some (a, ws') ∧ f a ws' = some res := by
  change (r ws).bind (fun p => f p.1 p.2) = some res ↔ _
  rw [Option.bind_eq_some_iff]
  constructor
  · rintro ⟨⟨a, ws'⟩, hr, hf⟩
    exact ⟨a, ws', hr, hf⟩
  · rintro ⟨a, ws', hr, hf⟩
    exact ⟨(a, ws'), hr, hf⟩

/-- How a computation on readers runs, one read at a time. -/
theorem bind_of_eq {r : Reader W α} {f : α → Reader W β} {ws ws' : List W} {a : α}
    (h : r ws = some (a, ws')) : (r >>= f) ws = f a ws' := by
  change (r ws).bind (fun p => f p.1 p.2) = _
  rw [h]
  rfl

/-- What arrives later is left for later. -/
def Extends (r : Reader W α) : Prop :=
  ∀ ws a rest more, r ws = some (a, rest) → r (ws ++ more) = some (a, rest ++ more)

theorem extends_pure (a : α) : Extends (pure a : Reader W α) := by
  intro ws b rest more h
  obtain ⟨rfl, rfl⟩ := Prod.mk.inj (Option.some.inj h)
  rfl

theorem extends_word : Extends (word : Reader W W) := by
  intro ws a rest more h
  cases ws with
  | nil => cases h
  | cons w ws =>
      obtain ⟨rfl, rfl⟩ := Prod.mk.inj (Option.some.inj h)
      rfl

theorem extends_words (n : Nat) : Extends (words n : Reader W (List W)) := by
  intro ws a rest more h
  unfold words at h ⊢
  split at h
  case isFalse => cases h
  case isTrue hle =>
    obtain ⟨rfl, rfl⟩ := Prod.mk.inj (Option.some.inj h)
    rw [if_pos (by simp only [List.length_append]; omega), List.take_append_of_le_length hle,
      List.drop_append_of_le_length hle]

theorem Extends.bind {r : Reader W α} {f : α → Reader W β} (hr : Extends r)
    (hf : ∀ a, Extends (f a)) : Extends (r >>= f) := by
  intro ws b rest more h
  obtain ⟨a, ws', hra, hfa⟩ := bind_eq_some.mp h
  exact bind_eq_some.mpr ⟨a, ws' ++ more, hr ws a ws' more hra, hf a ws' b rest more hfa⟩

theorem Extends.ite {r r' : Reader W α} {c : Prop} [Decidable c] (hr : Extends r)
    (hr' : Extends r') : Extends (if c then r else r') := by
  split
  · exact hr
  · exact hr'

end Reader

/-! ## Messages -/

/-- A way to write messages and the reader for it, on the messages that are
written. -/
structure Format (W M : Type) where
  Valid : M → Prop
  encode : M → List W
  reader : Reader W M
  stable : reader.Extends
  waits : reader [] = none
  reads : ∀ m rest, Valid m → reader (encode m ++ rest) = some (m, rest)

/-! ## Streams -/

/-- The words that have arrived and what the writer has still to write. -/
structure Stream (W : Type) where
  arrived : List W
  writing : List W

namespace Stream

def empty : Stream W := ⟨[], []⟩

/-- Begin to write. -/
def send (s : Stream W) (ws : List W) : Stream W := { s with writing := ws }

/-- Write a word. -/
def put (s : Stream W) : Option (Stream W) :=
  match s.writing with
  | [] => none
  | w :: ws => some ⟨s.arrived ++ [w], ws⟩

/-- Read. -/
def recv (s : Stream W) (r : Reader W α) : Option (α × Stream W) :=
  (r s.arrived).map fun p => (p.1, { s with arrived := p.2 })

end Stream

/-- The messages on a stream, in the order in which they are read. -/
structure Carries (F : Format W M) (s : Stream W) (ms : List M) : Prop where
  words : s.arrived ++ s.writing = ms.flatMap F.encode
  valid : ∀ m ∈ ms, F.Valid m

namespace Carries

variable {F : Format W M} {s s' : Stream W} {ms : List M} {m : M}

theorem empty (F : Format W M) : Carries F Stream.empty [] :=
  ⟨rfl, fun _ h => nomatch h⟩

theorem send (h : Carries F s ms) (hfree : s.writing = []) (hm : F.Valid m) :
    Carries F (s.send (F.encode m)) (ms ++ [m]) := by
  refine ⟨?_, ?_⟩
  · have hwords := h.words
    rw [hfree, List.append_nil] at hwords
    simp [Stream.send, hwords]
  · intro m' hm'
    rcases List.mem_append.mp hm' with hold | hnew
    · exact h.valid m' hold
    · rw [List.mem_singleton.mp hnew]
      exact hm

theorem put (h : Carries F s ms) (hput : s.put = some s') : Carries F s' ms := by
  unfold Stream.put at hput
  split at hput
  case h_1 => cases hput
  case h_2 w ws hw =>
    obtain rfl := Option.some.inj hput
    refine ⟨?_, h.valid⟩
    rw [← h.words, hw]
    simp

/-- What is read is the first message. -/
theorem recv (h : Carries F s ms) (hrecv : s.recv F.reader = some (m, s')) :
    s'.writing = s.writing ∧ ∃ rest, ms = m :: rest ∧ Carries F s' rest := by
  unfold Stream.recv at hrecv
  obtain ⟨⟨m', arrived⟩, hread, heq⟩ := Option.map_eq_some_iff.mp hrecv
  obtain ⟨rfl, rfl⟩ := Prod.mk.inj heq
  refine ⟨rfl, ?_⟩
  have hall := F.stable _ _ _ s.writing hread
  rw [h.words] at hall
  cases ms with
  | nil =>
      rw [List.flatMap_nil, F.waits] at hall
      cases hall
  | cons m ms =>
      rw [List.flatMap_cons, F.reads m _ (h.valid m List.mem_cons_self)] at hall
      obtain ⟨rfl, hrest⟩ := Prod.mk.inj (Option.some.inj hall)
      exact ⟨ms, rfl, hrest.symm, fun m' hm' => h.valid m' (List.mem_cons_of_mem _ hm')⟩

end Carries

end Wire
