import Mathlib.Data.List.Basic
import Mathlib.Data.Sigma.Basic

/-! Untagged codecs and the programs that read them. A codec gives every kind
of value a self-delimiting byte encoding. A `Reader` is a program that asks for
values one kind at a time and may choose what to ask next from what it got; it
does not say where the values come from. It can be run on bytes, on the list of
values itself, or on any other source, and a simulation between two sources
carries over to every program. -/
namespace ChatRoom.Lib

variable {κ : Type} {Carrier : κ → Type}

/-- Each kind's encoding can be cut off the front of any longer byte string,
and decoding accepts nothing but encodings. -/
structure Codec (Carrier : κ → Type) where
  encode : (kind : κ) → Carrier kind → List UInt8
  decode : (kind : κ) → List UInt8 → Option (Carrier kind × List UInt8)
  decode_encode : ∀ kind value rest, decode kind (encode kind value ++ rest) = some (value, rest)
  decode_sound : ∀ kind bytes value rest, decode kind bytes = some (value, rest) →
    bytes = encode kind value ++ rest

/-- A value together with its kind. -/
abbrev Value (Carrier : κ → Type) := Sigma Carrier

namespace Codec
variable (codec : Codec Carrier)

/-- Values laid end to end, without tags or separators. -/
def encodeAll (values : List (Value Carrier)) : List UInt8 :=
  values.flatMap fun value => codec.encode value.1 value.2

@[simp] theorem encodeAll_nil : codec.encodeAll [] = [] := rfl

@[simp] theorem encodeAll_cons (value : Value Carrier) (values : List (Value Carrier)) :
    codec.encodeAll (value :: values) = codec.encode value.1 value.2 ++ codec.encodeAll values := rfl

@[simp] theorem encodeAll_append (first second : List (Value Carrier)) :
    codec.encodeAll (first ++ second) = codec.encodeAll first ++ codec.encodeAll second := by
  simp [encodeAll]

end Codec

/-- A program that reads values. -/
inductive Reader (Carrier : κ → Type) (α : Type) where
  | done (result : α)
  | read (kind : κ) (next : Carrier kind → Reader Carrier α)

/-- Where values come from: the next value of a requested kind, and what is
left of the source. -/
abbrev Source (Carrier : κ → Type) (σ φ : Type) :=
  (kind : κ) → σ → Except φ (Carrier kind × σ)

namespace Reader
variable {α β σ τ φ ψ : Type}

def bind : Reader Carrier α → (α → Reader Carrier β) → Reader Carrier β
  | .done result, next => next result
  | .read kind more, next => .read kind fun value => (more value).bind next

instance : Monad (Reader Carrier) where
  pure := .done
  bind := bind

/-- Reads one value and returns it. -/
def value (kind : κ) : Reader Carrier (Carrier kind) := .read kind .done

/-- Reads a value of each of these kinds, in their order. -/
def each : List κ → Reader Carrier (List (Value Carrier))
  | [] => .done []
  | kind :: kinds => .read kind fun data => (each kinds).bind fun values => .done (⟨kind, data⟩ :: values)

/-- The body is run `count` times, each time on the state it left behind. -/
def times : Nat → (σ → Reader Carrier σ) → σ → Reader Carrier σ
  | 0, _, state => .done state
  | count + 1, body, state => (body state).bind (times count body)

def run (source : Source Carrier σ φ) : Reader Carrier α → σ → Except φ (α × σ)
  | .done result, state => .ok (result, state)
  | .read kind next, state =>
    match source kind state with
    | .error fault => .error fault
    | .ok (value, state) => (next value).run source state

variable {source : Source Carrier σ φ} {target : Source Carrier τ ψ}

@[simp] theorem pure_eq (result : α) : (pure result : Reader Carrier α) = .done result := rfl

@[simp] theorem bind_eq (reader : Reader Carrier α) (next : α → Reader Carrier β) :
    reader >>= next = reader.bind next := rfl

@[simp] theorem run_done (result : α) (state : σ) :
    (Reader.done result : Reader Carrier α).run source state = .ok (result, state) := rfl

/-- A bind that goes through has run both of its halves. -/
theorem run_bind_ok {reader : Reader Carrier α} {next : α → Reader Carrier β} {state final : σ}
    {result : β} :
    (reader.bind next).run source state = .ok (result, final) ↔
      ∃ between middle, reader.run source state = .ok (between, middle) ∧
        (next between).run source middle = .ok (result, final) := by
  induction reader generalizing state with
  | done between => simp [bind]
  | read kind more ih =>
    simp only [bind, run]
    cases source kind state with
    | error fault => simp
    | ok reply => exact ih reply.1

/-- A program stops only with a fault of its source. -/
theorem run_fault (possible : φ → Prop)
    (faults : ∀ kind state fault, source kind state = .error fault → possible fault)
    {reader : Reader Carrier α} {state : σ} {fault : φ} (stopped : reader.run source state = .error fault) :
    possible fault := by
  induction reader generalizing state with
  | done result => cases stopped
  | read kind next ih =>
    simp only [run] at stopped
    cases got : source kind state with
    | error cause =>
      simp only [got, Except.error.injEq] at stopped
      exact stopped ▸ faults kind state cause got
    | ok reply => exact ih reply.1 (by simpa only [got] using stopped)

/-- If every value one source gives is given by the other, and the sources stay
related, then every program gets the same result from both. -/
theorem run_simulates (related : σ → τ → Prop)
    (simulates : ∀ kind state twin value next, related state twin →
      source kind state = .ok (value, next) →
        ∃ nextTwin, target kind twin = .ok (value, nextTwin) ∧ related next nextTwin)
    {reader : Reader Carrier α} {state final : σ} {twin : τ} {result : α}
    (start : related state twin) (ran : reader.run source state = .ok (result, final)) :
    ∃ finalTwin, reader.run target twin = .ok (result, finalTwin) ∧ related final finalTwin := by
  induction reader generalizing state twin with
  | done result =>
    cases ran
    exact ⟨twin, rfl, start⟩
  | read kind next ih =>
    simp only [run] at ran ⊢
    cases got : source kind state with
    | error fault => simp [got] at ran
    | ok reply =>
      obtain ⟨value, rest⟩ := reply
      obtain ⟨restTwin, gotTwin, stays⟩ := simulates kind state twin value rest start got
      simp only [got] at ran
      simp only [gotTwin]
      exact ih value stays ran

/-! ### Reading values off a list, and off their bytes -/

/-- Values taken off the front of a list. Asking for another kind than the next
value has is an error. -/
def takeValue [DecidableEq κ] : Source Carrier (List (Value Carrier)) Unit
  | _, [] => .error ()
  | kind, value :: values =>
    if same : value.1 = kind then .ok (same ▸ value.2, values) else .error ()

/-- Values decoded off the front of a byte string. -/
def decoded (codec : Codec Carrier) : Source Carrier (List UInt8) Unit := fun kind bytes =>
  match codec.decode kind bytes with
  | none => .error ()
  | some reply => .ok reply

theorem decoded_ok {codec : Codec Carrier} {kind : κ} {bytes rest : List UInt8} {data : Carrier kind} :
    decoded codec kind bytes = .ok (data, rest) ↔ codec.decode kind bytes = some (data, rest) := by
  unfold decoded
  split <;> simp_all

variable [DecidableEq κ]

@[simp] theorem take_value_cons (kind : κ) (data : Carrier kind) (values : List (Value Carrier)) :
    takeValue kind (⟨kind, data⟩ :: values) = .ok (data, values) := by
  simp [takeValue]

@[simp] theorem run_read_cons (kind : κ) (next : Carrier kind → Reader Carrier α)
    (data : Carrier kind) (values : List (Value Carrier)) :
    (Reader.read kind next).run takeValue (⟨kind, data⟩ :: values) =
      (next data).run takeValue values := by
  simp [run]

theorem take_value_ok {kind : κ} {values rest : List (Value Carrier)} {data : Carrier kind} :
    takeValue kind values = .ok (data, rest) ↔ values = ⟨kind, data⟩ :: rest := by
  constructor
  · intro taken
    cases values with
    | nil => simp [takeValue] at taken
    | cons value values =>
      obtain ⟨own, held⟩ := value
      by_cases same : own = kind
      · subst same
        simp only [take_value_cons, Except.ok.injEq, Prod.mk.injEq] at taken
        obtain ⟨rfl, rfl⟩ := taken
        rfl
      · simp [takeValue, same] at taken
  · rintro rfl
    exact take_value_cons kind data rest

theorem run_value_ok {kind : κ} {values rest : List (Value Carrier)} {data : Carrier kind} :
    (value kind).run takeValue values = .ok (data, rest) ↔ values = ⟨kind, data⟩ :: rest := by
  rw [← take_value_ok]
  cases got : takeValue kind values with
  | error fault => simp [value, run, got]
  | ok reply => simp [value, run, got, Prod.ext_iff]

/-- Values are read back by asking for their kinds. -/
theorem run_each_values (values : List (Value Carrier)) :
    (each (values.map Sigma.fst)).run takeValue values = .ok (values, []) := by
  induction values with
  | nil => rfl
  | cons value values ih =>
    obtain ⟨kind, data⟩ := value
    simp only [List.map_cons, each, run_read_cons]
    exact run_bind_ok.mpr ⟨values, [], ih, rfl⟩

/-- What a program reads off a list of values it also reads off their bytes,
whatever bytes come behind. -/
theorem run_decoded_of_values (codec : Codec Carrier) {reader : Reader Carrier α} {result : α}
    {values rest : List (Value Carrier)} (tail : List UInt8)
    (ran : reader.run takeValue values = .ok (result, rest)) :
    reader.run (decoded codec) (codec.encodeAll values ++ tail) =
      .ok (result, codec.encodeAll rest ++ tail) := by
  have step : ∀ kind (values : List (Value Carrier)) (bytes : List UInt8) data next,
      bytes = codec.encodeAll values ++ tail → takeValue kind values = .ok (data, next) →
      ∃ more, decoded codec kind bytes = .ok (data, more) ∧ more = codec.encodeAll next ++ tail := by
    rintro kind values bytes data next rfl taken
    rw [take_value_ok.mp taken, Codec.encodeAll_cons, List.append_assoc]
    exact ⟨_, by rw [decoded, codec.decode_encode], rfl⟩
  obtain ⟨_, ran, rfl⟩ := run_simulates _ step rfl ran
  exact ran

/-- Whatever a program reads off bytes is a list of values whose encoding the
bytes start with. -/
theorem run_values_of_decoded (codec : Codec Carrier) {reader : Reader Carrier α} {result : α}
    {bytes rest : List UInt8} (ran : reader.run (decoded codec) bytes = .ok (result, rest)) :
    ∃ values, reader.run takeValue values = .ok (result, []) ∧
      bytes = codec.encodeAll values ++ rest := by
  induction reader generalizing bytes with
  | done result =>
    cases ran
    exact ⟨[], rfl, rfl⟩
  | read kind next ih =>
    simp only [run] at ran
    cases got : codec.decode kind bytes with
    | none => simp [decoded, got] at ran
    | some reply =>
      obtain ⟨data, more⟩ := reply
      simp only [decoded, got] at ran
      obtain ⟨values, ranValues, split⟩ := ih data ran
      exact ⟨⟨kind, data⟩ :: values, by simpa using ranValues, by
        rw [codec.decode_sound kind bytes data more got, split, Codec.encodeAll_cons,
          List.append_assoc]⟩

/-! ### Counted loops -/

variable {ι : Type} {body : σ → Reader Carrier σ}

/-- A loop whose body reads one item and folds it into the state reads as many
items as it counts, and folds them in. -/
theorem run_times_ok (fields : ι → List (Value Carrier)) (absorb : σ → ι → σ)
    (reads : ∀ state values result rest, (body state).run takeValue values = .ok (result, rest) ↔
      ∃ item, values = fields item ++ rest ∧ result = absorb state item)
    {count : Nat} {state result : σ} {values rest : List (Value Carrier)} :
    (times count body state).run takeValue values = .ok (result, rest) ↔
      ∃ items : List ι, items.length = count ∧ values = items.flatMap fields ++ rest ∧
        result = items.foldl absorb state := by
  induction count generalizing state values with
  | zero =>
    simp only [times, run_done, Except.ok.injEq, Prod.mk.injEq, List.length_eq_zero_iff,
      exists_eq_left, List.flatMap_nil, List.nil_append, List.foldl_nil]
    exact ⟨fun ⟨same, left⟩ => ⟨left, same.symm⟩, fun ⟨left, same⟩ => ⟨same.symm, left⟩⟩
  | succ count ih =>
    simp only [times, run_bind_ok, reads, ih]
    constructor
    · rintro ⟨_, _, ⟨item, rfl, rfl⟩, items, rfl, rfl, rfl⟩
      exact ⟨item :: items, rfl, by simp, rfl⟩
    · rintro ⟨items, size, rfl, rfl⟩
      cases items with
      | nil => simp at size
      | cons item items =>
        exact ⟨_, _, ⟨item, by rw [List.flatMap_cons, List.append_assoc], rfl⟩, items, by simpa using size, rfl, rfl⟩

end Reader
end ChatRoom.Lib
