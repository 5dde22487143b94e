/-!
# Commands on a byte stream

A receiver reads a stream as commands: an opcode, then as many arguments as
the opcode's arity. `decode` gives the commands completed so far and the
decoder that is left, `none` when it is idle. Nothing of the stream is lost or
invented (`decode_bytes`), and a stream written command by command is read
back as those commands (`decode_flatMap`).

The last section is about a decoder that is not idle: whatever comes next is
taken as its missing arguments.
-/

namespace LineFollower.Lib

universe u

variable {B : Type u}

structure Command (arity : B → Nat) where
  opcode : B
  args : List B
  complete : args.length = arity opcode

structure Partial (arity : B → Nat) where
  opcode : B
  got : List B
  short : got.length < arity opcode

abbrev Decoder (arity : B → Nat) := Option (Partial arity)

variable {arity : B → Nat}

instance [DecidableEq B] : DecidableEq (Command arity) := fun a b =>
  decidable_of_iff (a.opcode = b.opcode ∧ a.args = b.args) (by cases a; cases b; simp)

def Command.bytes (c : Command arity) : List B := c.opcode :: c.args

def Decoder.bytes : Decoder arity → List B
  | none => []
  | some p => p.opcode :: p.got

def Command.bare (b : B) (h : arity b = 0) : Command arity := ⟨b, [], by simp [h]⟩

/-- The decoder with `got` arguments of `opcode`, and the command it has
completed when that is all of them. -/
def advance (opcode : B) (got : List B) (h : got.length ≤ arity opcode) :
    List (Command arity) × Decoder arity :=
  if hc : got.length = arity opcode then ([⟨opcode, got, hc⟩], none)
  else ([], some ⟨opcode, got, Nat.lt_of_le_of_ne h hc⟩)

theorem Partial.next_le (p : Partial arity) (b : B) : (p.got ++ [b]).length ≤ arity p.opcode := by
  simpa [Nat.succ_le_iff] using p.short

def feed : Decoder arity → B → List (Command arity) × Decoder arity
  | none, b => advance b [] (Nat.zero_le _)
  | some p, b => advance p.opcode (p.got ++ [b]) (p.next_le b)

def decode : Decoder arity → List B → List (Command arity) × Decoder arity
  | d, [] => ([], d)
  | d, b :: bs =>
    let first := feed d b
    let rest := decode first.2 bs
    (first.1 ++ rest.1, rest.2)

-- ---------------------------------------------------------------------------
-- Reading a stream piece by piece
-- ---------------------------------------------------------------------------

@[simp] theorem decode_nil (d : Decoder arity) : decode d [] = ([], d) := rfl

theorem decode_append (d : Decoder arity) (xs ys : List B) :
    decode d (xs ++ ys) =
      ((decode d xs).1 ++ (decode (decode d xs).2 ys).1, (decode (decode d xs).2 ys).2) := by
  induction xs generalizing d with
  | nil => simp only [decode_nil, List.nil_append]
  | cons x xs ih => simp [decode, ih]

theorem mem_decode_of_take {d : Decoder arity} {bs : List B} {n : Nat} {c : Command arity}
    (h : c ∈ (decode d (bs.take n)).1) : c ∈ (decode d bs).1 := by
  rw [← List.take_append_drop n bs, decode_append]
  exact List.mem_append_left _ h

theorem prefix_decode {d : Decoder arity} {xs bs : List B} (h : xs <+: bs) :
    (decode d xs).1 <+: (decode d bs).1 := by
  obtain ⟨ys, rfl⟩ := h
  rw [decode_append]
  exact List.prefix_append _ _

theorem advance_bytes (opcode : B) (got : List B) (h : got.length ≤ arity opcode) :
    (advance opcode got h).1.flatMap Command.bytes ++ (advance opcode got h).2.bytes =
      opcode :: got := by
  unfold advance
  split <;> simp [Command.bytes, Decoder.bytes]

theorem feed_bytes (d : Decoder arity) (b : B) :
    (feed d b).1.flatMap Command.bytes ++ (feed d b).2.bytes = d.bytes ++ [b] := by
  cases d with
  | none => exact advance_bytes b [] (Nat.zero_le _)
  | some p => exact advance_bytes p.opcode (p.got ++ [b]) (p.next_le b)

/-- The bytes of the commands read and of the one in progress are the bytes
received. -/
theorem decode_bytes (d : Decoder arity) (bs : List B) :
    (decode d bs).1.flatMap Command.bytes ++ (decode d bs).2.bytes = d.bytes ++ bs := by
  induction bs generalizing d with
  | nil => simp only [decode_nil, List.flatMap_nil, List.nil_append, List.append_nil]
  | cons b bs ih =>
    have hb := feed_bytes d b
    simp only [decode, List.flatMap_append, List.append_assoc, ih (feed d b).2]
    rw [← List.append_assoc, hb, List.append_assoc, List.singleton_append]

-- ---------------------------------------------------------------------------
-- Writing and reading back
-- ---------------------------------------------------------------------------

theorem advance_more (opcode : B) (got : List B) (h : got.length < arity opcode) :
    advance opcode got (Nat.le_of_lt h) = ([], some ⟨opcode, got, h⟩) := by
  simp [advance, Nat.ne_of_lt h]

theorem advance_done (opcode : B) (got : List B) (h : got.length = arity opcode) :
    advance opcode got (Nat.le_of_eq h) = ([⟨opcode, got, h⟩], none) := by
  simp [advance, h]

theorem decode_args (p : Partial arity) (b : B) (args : List B)
    (h : (p.got ++ b :: args).length = arity p.opcode) :
    decode (some p) (b :: args) = ([⟨p.opcode, p.got ++ b :: args, h⟩], none) := by
  induction args generalizing p b with
  | nil => simp [decode, feed, advance_done _ _ h]
  | cons a args ih =>
    have hs : (p.got ++ [b]).length < arity p.opcode := by simp at h ⊢; omega
    have hrest := ih ⟨p.opcode, p.got ++ [b], hs⟩ a (by simpa using h)
    rw [decode, show feed (some p) b = _ from advance_more _ _ hs, hrest]
    simp

theorem decode_command (c : Command arity) : decode none c.bytes = ([c], none) := by
  obtain ⟨opcode, args, h⟩ := c
  cases args with
  | nil => simp [Command.bytes, decode, feed, advance_done opcode [] h]
  | cons a args =>
    have hs : ([] : List B).length < arity opcode := by simp at h ⊢; omega
    rw [Command.bytes, decode, show feed none opcode = _ from advance_more opcode [] hs]
    simp [decode_args ⟨opcode, [], hs⟩ a args (by simpa using h)]

theorem decode_flatMap (cs : List (Command arity)) :
    decode none (cs.flatMap Command.bytes) = (cs, none) := by
  induction cs with
  | nil => rfl
  | cons c cs ih => simp [decode_append, decode_command, ih]

theorem decode_replicate (b : B) (h : arity b = 0) (n : Nat) :
    decode none (List.replicate n b) = (List.replicate n (Command.bare b h), none) := by
  have hw : List.replicate n b = (List.replicate n (Command.bare b h)).flatMap Command.bytes := by
    induction n with
    | zero => rfl
    | succ n ih => simp [List.replicate_succ, ih, Command.bytes, Command.bare]
  rw [hw, decode_flatMap]

theorem decode_append_idle {xs ys : List B} (h : (decode (none : Decoder arity) xs).2 = none) :
    decode (none : Decoder arity) (xs ++ ys) =
      ((decode none xs).1 ++ (decode none ys).1, (decode none ys).2) := by
  rw [decode_append, h]

-- ---------------------------------------------------------------------------
-- A command in progress
-- ---------------------------------------------------------------------------

theorem advance_opcode {opcode : B} {got : List B} (h : got.length ≤ arity opcode) :
    (∀ c ∈ (advance opcode got h).1, c.opcode = opcode) ∧
      ∀ p, (advance opcode got h).2 = some p → p.opcode = opcode ∧
        (advance opcode got h).1 = [] := by
  unfold advance
  split <;> simp

theorem head_of_partial (p : Partial arity) (bs : List B) (c : Command arity)
    (h : (decode (some p) bs).1.head? = some c) : c.opcode = p.opcode := by
  induction bs generalizing p with
  | nil => simp only [decode_nil, List.head?_nil, reduceCtorEq] at h
  | cons b bs ih =>
    obtain ⟨hdone, hmore⟩ := advance_opcode (p.next_le b)
    change ∀ c ∈ (feed (some p) b).1, _ at hdone
    change ∀ q, (feed (some p) b).2 = some q → q.opcode = p.opcode ∧
      (feed (some p) b).1 = [] at hmore
    simp only [decode, List.head?_append] at h
    cases hf : (feed (some p) b).1 with
    | cons x xs =>
      simp only [hf, List.head?_cons, Option.some_or, Option.some.injEq] at h
      exact h ▸ hdone x (by simp [hf])
    | nil =>
      cases hd : (feed (some p) b).2 with
      | none =>
        -- A decoder that has become idle has completed its command.
        have hb := feed_bytes (some p) b
        simp [hf, hd, Decoder.bytes] at hb
      | some q =>
        simp only [hf, hd, List.head?_nil, Option.none_or] at h
        exact (ih q h).trans (hmore q hd).1

/-- A busy decoder does not read a stream as an idle one does when that one
reads a command without arguments first. -/
theorem decode_partial_ne (p : Partial arity) {bs : List B} {c : Command arity}
    (h : (decode none bs).1.head? = some c) (hc : arity c.opcode = 0) :
    (decode (some p) bs).1 ≠ (decode none bs).1 := by
  intro heq
  have hop : c.opcode = p.opcode := head_of_partial p bs c (heq ▸ h)
  have hshort := p.short
  rw [← hop, hc] at hshort
  exact absurd hshort (Nat.not_lt_zero _)

end LineFollower.Lib
