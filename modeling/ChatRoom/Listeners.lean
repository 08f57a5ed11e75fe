import ChatRoom.Client
import ChatRoom.Driver
import ChatRoom.Lib.Numerals
import Mathlib.Data.List.Nodup

/-! The addresses that a net service listens on. They are kept in a set that
compares them by their texts, and the text of an address is its ip and its port
with nothing between them. -/
namespace ChatRoom
open Lib

structure Addr where
  ip : StdString
  port : Int16
  deriving DecidableEq

namespace Addr

/-- `Addr::ToString`. `i2s` prints the port as an `int`. -/
def toString (addr : Addr) : List UInt8 := addr.ip.bytes ++ text (ToString.toString addr.port.toInt)

instance : Ord Addr := ⟨compareOn toString⟩

instance : Std.TransOrd Addr := inferInstanceAs (Std.TransCmp (compareOn toString))

/-- `operator<`. -/
def Less (left right : Addr) : Prop := compare left.toString right.toString = .lt

/-- Neither is less than the other. -/
def Equivalent (left right : Addr) : Prop := ¬ Less left right ∧ ¬ Less right left

theorem compare_eq_iff {left right : Addr} : compare left right = .eq ↔ left.toString = right.toString := by
  change compare left.toString right.toString = .eq ↔ _
  exact Std.LawfulEqCmp.compare_eq_iff_eq

theorem equivalent_iff {left right : Addr} : Equivalent left right ↔ left.toString = right.toString := by
  have swapped : compare right.toString left.toString = (compare left.toString right.toString).swap :=
    Std.OrientedCmp.eq_swap
  rw [← compare_eq_iff, Equivalent, Less, Less, swapped]
  change _ ↔ compare left.toString right.toString = .eq
  cases compare left.toString right.toString <;> simp

end Addr

/-- The listeners of a net service. An accepter is known by the address that it
was made with. -/
structure Listeners where
  mLocalAddrs : Std.ExtTreeSet Addr
  mAccepters : Std.ExtTreeMap (List UInt8) Addr

namespace Listeners

def new : Listeners where
  mLocalAddrs := ∅
  mAccepters := ∅

/-- `AddListener`. -/
def addListener (listeners : Listeners) (ip : StdString) (port : Int16) : Int × Listeners :=
  if listeners.mLocalAddrs.contains ⟨ip, port⟩ then (EEXIST, listeners)
  else (0, { listeners with mLocalAddrs := listeners.mLocalAddrs.insert ⟨ip, port⟩ })

/-- The loop of `StartListener`; the error of each `StartListen` is given. -/
def startLoop (startListen : Addr → Int) (accepters : Std.ExtTreeMap (List UInt8) Addr) :
    List Addr → Int × Std.ExtTreeMap (List UInt8) Addr
  | [] => (0, accepters)
  | addr :: addrs =>
    if startListen addr ≠ 0 then (startListen addr, accepters)
    else startLoop startListen (accepters.insertIfNew addr.toString addr) addrs

/-- `StartListener`. -/
def startListener (listeners : Listeners) (startListen : Addr → Int) : Int × Listeners :=
  let (err, mAccepters) := startLoop startListen listeners.mAccepters listeners.mLocalAddrs.toList
  (err, { listeners with mAccepters })

variable {listeners : Listeners} {addr call : Addr} {calls : List Addr}

/-! ### What the set holds -/

/-- A net service after these calls of `AddListener`. -/
def added (calls : List Addr) : Listeners :=
  calls.foldl (fun listeners call => (listeners.addListener call.ip call.port).2) new

theorem add_listener_err : (listeners.addListener call.ip call.port).1 = EEXIST ↔ call ∈ listeners.mLocalAddrs := by
  unfold addListener
  split
  · rename_i held
    simpa using held
  · rename_i absent
    simpa [EEXIST] using absent

private theorem local_addrs_add :
    addr ∈ (listeners.addListener call.ip call.port).2.mLocalAddrs.toList ↔
      (addr = call ∧ call ∉ listeners.mLocalAddrs) ∨ addr ∈ listeners.mLocalAddrs.toList := by
  unfold addListener
  split
  · rename_i held
    have inside : call ∈ listeners.mLocalAddrs := by simpa using held
    simp [inside]
  · exact mem_to_list_insert

/-- Every address that is held was added. -/
theorem added_of_held (held : addr ∈ (added calls).mLocalAddrs.toList) : addr ∈ calls := by
  induction calls using List.reverseRecOn with
  | nil =>
    have none : (added []).mLocalAddrs.toList = [] := Std.ExtTreeSet.toList_eq_nil_iff.mpr rfl
    rwa [none] at held
  | append_singleton calls call ih =>
    rw [added, List.foldl_append, List.foldl_cons, List.foldl_nil, ← added, local_addrs_add] at held
    rcases held with ⟨rfl, _⟩ | before
    · exact List.mem_append_right _ (List.mem_singleton_self _)
    · exact List.mem_append_left _ (ih before)

/-- For every address that was added one with its text is held. -/
theorem held_of_added (among : call ∈ calls) :
    ∃ addr ∈ (added calls).mLocalAddrs.toList, addr.toString = call.toString := by
  induction calls using List.reverseRecOn with
  | nil => cases among
  | append_singleton calls last ih =>
    simp only [added, List.foldl_append, List.foldl_cons, List.foldl_nil]
    rw [← added]
    rcases List.mem_append.mp among with before | now
    · obtain ⟨addr, held, same⟩ := ih before
      exact ⟨addr, local_addrs_add.mpr (.inr held), same⟩
    · rw [List.mem_singleton.mp now]
      by_cases inside : last ∈ (added calls).mLocalAddrs
      · obtain ⟨addr, held, same⟩ := mem_iff_equivalent.mp inside
        exact ⟨addr, local_addrs_add.mpr (.inr held), Addr.compare_eq_iff.mp same⟩
      · exact ⟨last, local_addrs_add.mpr (.inl ⟨rfl, inside⟩), rfl⟩

/-! ### What the accepters are -/

private theorem start_loop_ok {startListen : Addr → Int} {accepters : Std.ExtTreeMap (List UInt8) Addr}
    {addrs : List Addr} (succeeds : (startLoop startListen accepters addrs).1 = 0) :
    (startLoop startListen accepters addrs).2 = insertEach Addr.toString id accepters addrs := by
  induction addrs generalizing accepters with
  | nil => rfl
  | cons addr addrs ih =>
    rw [startLoop] at succeeds ⊢
    split at succeeds
    · rename_i failed
      exact absurd succeeds failed
    · rename_i started
      rw [if_neg started, insertEach, List.foldl_cons, ← insertEach]
      exact ih succeeds

/-- One accepter for each of these addresses, under its text. -/
structure OneForEach (accepters : Std.ExtTreeMap (List UInt8) Addr) (addrs : List Addr) : Prop where
  addrs : ∀ addr, addr ∈ valuesOf accepters ↔ addr ∈ addrs
  once : (valuesOf accepters).Nodup
  keys : ∀ (key : List UInt8) (addr : Addr), accepters[key]? = some addr → addr.toString = key

/-- A start that succeeds makes an accepter for every address in the set. -/
theorem start_listener_ok {startListen : Addr → Int} (fresh : listeners.mAccepters = ∅)
    (succeeds : (listeners.startListener startListen).1 = 0) :
    OneForEach (listeners.startListener startListen).2.mAccepters listeners.mLocalAddrs.toList := by
  have made : (listeners.startListener startListen).2.mAccepters =
      insertEach Addr.toString id ∅ listeners.mLocalAddrs.toList := by
    rw [← fresh]
    exact start_loop_ok succeeds
  have lookup : ∀ key : List UInt8, (listeners.startListener startListen).2.mAccepters[key]? =
      listeners.mLocalAddrs.toList.find? fun addr => decide (addr.toString = key) := by
    intro key
    rw [made, insert_each_lookup]
    simp
  have keys : ∀ (key : List UInt8) (addr : Addr),
      (listeners.startListener startListen).2.mAccepters[key]? = some addr → addr.toString = key := by
    intro key addr found
    rw [lookup] at found
    simpa using List.find?_some found
  refine ⟨fun addr => ?_, ?_, keys⟩
  · rw [mem_values_of]
    constructor
    · rintro ⟨key, found⟩
      rw [lookup] at found
      exact List.mem_of_find?_eq_some found
    · intro held
      refine ⟨addr.toString, ?_⟩
      rw [lookup]
      cases found : listeners.mLocalAddrs.toList.find? fun other => decide (other.toString = addr.toString) with
      | none => simpa using List.find?_eq_none.mp found addr held
      | some other =>
        have text : other.toString = addr.toString := by simpa using List.find?_some found
        have same := equivalent_members (List.mem_of_find?_eq_some found) held (Addr.compare_eq_iff.mpr text)
        rw [same]
  · have entries : (listeners.startListener startListen).2.mAccepters.toList.Nodup :=
      Std.ExtTreeMap.distinct_keys_toList.imp fun {first second} different same => different (by simp [same])
    rw [valuesOf]
    refine List.Nodup.map_on ?_ entries
    rintro ⟨key, addr⟩ first ⟨key', addr'⟩ second same
    rw [Std.ExtTreeMap.mem_toList_iff_getElem?_eq_some] at first second
    cases same
    rw [← keys key addr first, keys key' addr second]

/-! ### Which texts are the same -/

/-- One of the four numbers of a dotted quad. -/
def IsOctet (part : List UInt8) : Prop :=
  part ≠ [] ∧ part.length ≤ 3 ∧ (∀ digit ∈ part, 48 ≤ digit.toNat ∧ digit.toNat ≤ 57) ∧ valueOfDigits part ≤ 255

instance (part : List UInt8) : Decidable (IsOctet part) :=
  have : Decidable (∀ digit ∈ part, 48 ≤ digit.toNat ∧ digit.toNat ≤ 57) := List.decidableBAll _ part
  inferInstanceAs (Decidable (_ ∧ _ ∧ _ ∧ _))

/-- Four numbers with dots between them. -/
def IsDottedQuad (ip : StdString) : Prop :=
  ∃ first second third fourth, IsOctet first ∧ IsOctet second ∧ IsOctet third ∧ IsOctet fourth ∧
    ip.bytes = first ++ [46] ++ second ++ [46] ++ third ++ [46] ++ fourth

/-- The minus sign, which only a port can have. -/
theorem quad_has_no_minus {ip : StdString} (quad : IsDottedQuad ip) : 45 ∉ ip.bytes := by
  obtain ⟨first, second, third, fourth, one, two, three, four, split⟩ := quad
  have absent : ∀ part, IsOctet part → (45 : UInt8) ∉ part := by
    intro part octet member
    exact absurd (octet.2.2.1 45 member).1 (by decide)
  rw [split]
  simp [absent first one, absent second two, absent third three, absent fourth four]

/-- The text of the second address is that of the first, cut behind digits of
the port instead of in front of them. -/
def Clash (longPort longIp : Addr) : Prop :=
  ∃ moved : Nat, 0 < moved ∧ longIp.ip.bytes = longPort.ip.bytes ++ numeral moved ∧ 0 ≤ longIp.port.toInt ∧
    longPort.port.toInt = moved * 10 ^ (numeral longIp.port.toInt.toNat).length + longIp.port.toInt

private theorem text_nat (number : Nat) : text (toString number) = numeral number := by
  rw [text, numeral, Nat.toString_eq_ofList_toDigits, String.toList_ofList]

private theorem text_nonneg {number : Int} (nonneg : 0 ≤ number) : text (toString number) = numeral number.toNat := by
  obtain ⟨natural, rfl⟩ := Int.eq_ofNat_of_zero_le nonneg
  exact text_nat natural

private theorem text_negative {number : Int} (negative : number < 0) :
    text (toString number) = 45 :: numeral (-number).toNat := by
  obtain ⟨natural, rfl⟩ := Int.eq_negSucc_of_lt_zero negative
  have signed : toString (Int.negSucc natural) = "-" ++ toString (natural + 1) := rfl
  have text_signed : text (toString (Int.negSucc natural)) = 45 :: text (toString (natural + 1)) := by
    rw [signed, text, String.toList_append]
    rfl
  rw [text_signed, text_nat]
  rfl

private theorem no_minus_in_numeral (number : Nat) : 45 ∉ numeral number := by
  intro member
  exact absurd (numeral_digits number 45 member).1 (by decide)

private theorem text_injective {left right : Int} (same : text (toString left) = text (toString right)) :
    left = right := by
  by_cases leftSign : left < 0
  · rw [text_negative leftSign] at same
    by_cases rightSign : right < 0
    · rw [text_negative rightSign] at same
      have numbers := numeral_injective (List.tail_eq_of_cons_eq same)
      omega
    · rw [text_nonneg (by omega)] at same
      exact absurd (same ▸ List.mem_cons_self) (no_minus_in_numeral right.toNat)
  · rw [text_nonneg (by omega)] at same
    by_cases rightSign : right < 0
    · rw [text_negative rightSign] at same
      exact absurd (same.symm ▸ List.mem_cons_self) (no_minus_in_numeral left.toNat)
    · rw [text_nonneg (by omega)] at same
      have numbers := numeral_injective same
      omega

/-- Clashing addresses have one text. -/
theorem clash_same_text (clash : Clash addr call) : addr.toString = call.toString := by
  obtain ⟨moved, positive, ips, low, ports⟩ := clash
  have front : (0 : Int) ≤ (moved * 10 ^ (numeral call.port.toInt.toNat).length : Nat) := Int.natCast_nonneg _
  push_cast at front
  have number : addr.port.toInt.toNat = moved * 10 ^ (numeral call.port.toInt.toNat).length + call.port.toInt.toNat := by
    zify
    rw [Int.toNat_of_nonneg low, Int.toNat_of_nonneg (by omega), ports]
  rw [Addr.toString, Addr.toString, ips, text_nonneg (by omega : 0 ≤ addr.port.toInt), text_nonneg low, number,
    List.append_assoc, numeral_append positive]

theorem clash_differs (clash : Clash addr call) : addr ≠ call := by
  rintro rfl
  obtain ⟨moved, _, ips, _⟩ := clash
  exact numeral_ne_nil moved (List.append_right_eq_self.mp ips.symm)

private theorem clash_of_longer {more : List UInt8} (noMinus : 45 ∉ call.ip.bytes) (some : more ≠ [])
    (ips : call.ip.bytes = addr.ip.bytes ++ more)
    (ports : text (toString addr.port.toInt) = more ++ text (toString call.port.toInt)) : Clash addr call := by
  have high : 0 ≤ addr.port.toInt := by
    by_contra negative
    -- the minus sign would be part of the longer ip
    rw [text_negative (by omega)] at ports
    cases more with
    | nil => exact some rfl
    | cons sign more =>
      obtain ⟨rfl, _⟩ := List.cons.inj ports
      exact noMinus (by simp [ips])
  have low : 0 ≤ call.port.toInt := by
    by_contra negative
    rw [text_nonneg high, text_negative (by omega)] at ports
    have inside : 45 ∈ numeral addr.port.toInt.toNat := by
      rw [ports]
      simp
    exact no_minus_in_numeral _ inside
  rw [text_nonneg high, text_nonneg low] at ports
  obtain ⟨moved, positive, rfl, number⟩ := numeral_split ports some
  refine ⟨moved, positive, ips, low, ?_⟩
  zify at number
  rwa [Int.toNat_of_nonneg low, Int.toNat_of_nonneg high] at number

private theorem same_of_parts (ips : call.ip.bytes = addr.ip.bytes)
    (ports : text (toString addr.port.toInt) = text (toString call.port.toInt)) : addr = call := by
  obtain ⟨ip, port⟩ := addr
  obtain ⟨ip', port'⟩ := call
  obtain rfl : ip' = ip := StdString.ext ips
  obtain rfl : port = port' := Int16.toInt_inj.mp (text_injective ports)
  rfl

/-- Two addresses have the same text when they are the same or when they clash. -/
theorem same_text_iff (quad : IsDottedQuad addr.ip) (quadToo : IsDottedQuad call.ip) :
    addr.toString = call.toString ↔ addr = call ∨ Clash addr call ∨ Clash call addr := by
  constructor
  · intro same
    rcases List.append_eq_append_iff.mp same with ⟨more, ips, ports⟩ | ⟨more, ips, ports⟩
    · by_cases none : more = []
      · rw [none] at ips ports
        exact .inl (same_of_parts (by simpa using ips) ports)
      · exact .inr (.inl (clash_of_longer (quad_has_no_minus quadToo) none ips ports))
    · by_cases none : more = []
      · rw [none] at ips ports
        exact .inl (same_of_parts (by simpa using ips) ports).symm
      · exact .inr (.inr (clash_of_longer (quad_has_no_minus quad) none ips ports))
  · rintro (rfl | clash | clash)
    · rfl
    · exact clash_same_text clash
    · exact (clash_same_text clash).symm

/-! ### Faithful listeners -/

/-- Addresses are kept apart as they were added: a call is refused when the same
address was added before, the set holds just what was added, and a start that
succeeds makes one accepter for each. -/
structure Faithful (calls : List Addr) : Prop where
  refused : ∀ earlier call later, calls = earlier ++ call :: later →
    (((added earlier).addListener call.ip call.port).1 = EEXIST ↔ call ∈ earlier)
  held : ∀ addr, addr ∈ (added calls).mLocalAddrs.toList ↔ addr ∈ calls
  accepters : ∀ startListen, ((added calls).startListener startListen).1 = 0 →
    OneForEach ((added calls).startListener startListen).2.mAccepters calls

private theorem added_has_no_accepters (calls : List Addr) : (added calls).mAccepters = ∅ := by
  induction calls using List.reverseRecOn with
  | nil => rfl
  | append_singleton calls call ih =>
    rw [added, List.foldl_append, List.foldl_cons, List.foldl_nil, ← added, addListener]
    split <;> exact ih

private theorem faithful_of_apart
    (apart : ∀ first ∈ calls, ∀ second ∈ calls, first.toString = second.toString → first = second) :
    Faithful calls := by
  have held : ∀ addr, addr ∈ (added calls).mLocalAddrs.toList ↔ addr ∈ calls := by
    refine fun addr => ⟨added_of_held, fun among => ?_⟩
    obtain ⟨other, inside, same⟩ := held_of_added among
    rwa [← apart other (added_of_held inside) addr among same]
  refine ⟨fun earlier call later split => ?_, held, fun startListen succeeds => ?_⟩
  · rw [add_listener_err, mem_iff_equivalent]
    have before : ∀ addr ∈ earlier, addr ∈ calls := fun addr among => split ▸ List.mem_append_left _ among
    have now : call ∈ calls := split ▸ List.mem_append_right _ List.mem_cons_self
    constructor
    · rintro ⟨addr, inside, same⟩
      have among := added_of_held inside
      rwa [← apart addr (before addr among) call now (Addr.compare_eq_iff.mp same)]
    · intro among
      obtain ⟨addr, inside, same⟩ := held_of_added among
      exact ⟨addr, inside, Addr.compare_eq_iff.mpr same⟩
  · have one := start_listener_ok (added_has_no_accepters calls) succeeds
    exact ⟨fun addr => (one.addrs addr).trans (held addr), one.once, one.keys⟩

private theorem equivalence_faithful_iff {first second : Addr} (quad : IsDottedQuad first.ip)
    (quadToo : IsDottedQuad second.ip) :
    (Addr.Equivalent first second ↔ first = second) ↔ ¬ Clash first second ∧ ¬ Clash second first := by
  rw [Addr.equivalent_iff, same_text_iff quad quadToo]
  constructor
  · intro same
    exact ⟨fun clash => clash_differs clash (same.mp (.inr (.inl clash))),
      fun clash => clash_differs clash (same.mp (.inr (.inr clash))).symm⟩
  · rintro ⟨apart, apartToo⟩
    exact ⟨fun same => same.resolve_right (not_or.mpr ⟨apart, apartToo⟩), .inl⟩

/-- Two addresses are compared faithfully exactly when they do not clash; and a
net service keeps the addresses it is given apart exactly when no two clash. -/
theorem listeners_are_faithful_iff (first second : Addr) (calls : List Addr) (quad : IsDottedQuad first.ip)
    (quadToo : IsDottedQuad second.ip) (quads : ∀ call ∈ calls, IsDottedQuad call.ip) :
    ((Addr.Equivalent first second ↔ first = second) ↔ ¬ Clash first second ∧ ¬ Clash second first) ∧
      (Faithful calls ↔ ∀ first ∈ calls, ∀ second ∈ calls, ¬ Clash first second) := by
  refine ⟨equivalence_faithful_iff quad quadToo, ?_⟩
  constructor
  · intro faithful first among second amongToo clash
    have same := Addr.compare_eq_iff.mpr (clash_same_text clash)
    exact clash_differs clash (equivalent_members ((faithful.held first).mpr among)
      ((faithful.held second).mpr amongToo) same)
  · intro apart
    apply faithful_of_apart
    intro first among second amongToo same
    rcases (same_text_iff (quads first among) (quads second amongToo)).mp same with same | clash | clash
    · exact same
    · exact absurd clash (apart first among second amongToo)
    · exact absurd clash (apart second amongToo first among)

/-- Two ports of one host. -/
theorem two_ports_are_kept_apart :
    (Addr.Equivalent ⟨.ascii "127.0.0.1", 7788⟩ ⟨.ascii "127.0.0.1", -7788⟩ ↔
        (⟨.ascii "127.0.0.1", 7788⟩ : Addr) = ⟨.ascii "127.0.0.1", -7788⟩) ∧
      Faithful [⟨.ascii "127.0.0.1", 7788⟩, ⟨.ascii "127.0.0.1", -7788⟩] := by
  have quad : IsDottedQuad (.ascii "127.0.0.1") :=
    ⟨[49, 50, 55], [48], [48], [49], by decide, by decide, by decide, by decide, by decide⟩
  have apart : ∀ port port' : Int16, ¬ Clash ⟨.ascii "127.0.0.1", port⟩ ⟨.ascii "127.0.0.1", port'⟩ := by
    rintro port port' ⟨moved, _, ips, _⟩
    exact numeral_ne_nil moved (List.append_right_eq_self.mp ips.symm)
  obtain ⟨compared, kept⟩ := listeners_are_faithful_iff ⟨.ascii "127.0.0.1", 7788⟩ ⟨.ascii "127.0.0.1", -7788⟩
    [⟨.ascii "127.0.0.1", 7788⟩, ⟨.ascii "127.0.0.1", -7788⟩] quad quad (by simp [quad])
  exact ⟨compared.mpr ⟨apart _ _, apart _ _⟩, kept.mpr (by simp [apart])⟩

/-- Two hosts whose texts with their ports are both `192.168.0.117788`. -/
def shortIp : Addr := ⟨.ascii "192.168.0.1", 17788⟩

def longIp : Addr := ⟨.ascii "192.168.0.11", 7788⟩

theorem a_second_host_is_refused :
    IsDottedQuad shortIp.ip ∧ IsDottedQuad longIp.ip ∧ shortIp ≠ longIp ∧ Addr.Equivalent shortIp longIp ∧
      ((added [shortIp]).addListener longIp.ip longIp.port).1 = EEXIST ∧ ¬ Faithful [shortIp, longIp] := by
  have clash : Clash shortIp longIp := ⟨1, by decide, by decide, by decide, by decide⟩
  have same := clash_same_text clash
  refine ⟨⟨[49, 57, 50], [49, 54, 56], [48], [49], by decide, by decide, by decide, by decide, by decide⟩,
    ⟨[49, 57, 50], [49, 54, 56], [48], [49, 49], by decide, by decide, by decide, by decide, by decide⟩,
    clash_differs clash, Addr.equivalent_iff.mpr same, ?_, fun faithful => ?_⟩
  · obtain ⟨addr, held, text⟩ := held_of_added (List.mem_singleton_self shortIp)
    rw [add_listener_err, mem_iff_equivalent]
    exact ⟨addr, held, Addr.compare_eq_iff.mpr (text.trans same)⟩
  · have short := (faithful.held shortIp).mpr (by simp)
    have long := (faithful.held longIp).mpr (by simp)
    exact clash_differs clash (equivalent_members short long (Addr.compare_eq_iff.mpr same))

end Listeners
end ChatRoom
