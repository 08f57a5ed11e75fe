import ChatRoom.CmdLineReading
import ChatRoom.Main
import ChatRoom.Lib.Memory

/-! Which command lines start the program, and as what. `main` goes on exactly when
its arguments are spelled in words that fit the options, name a role, an address and a
port, for a client also a user, and do not ask for help; it then goes on with what is
said last. The port is a number of 1 to 65535, and survives the `short` that it is
kept in. Nothing else keeps a start from being typed. -/
namespace ChatRoom.ProgramStart
open Lib CmdLine CmdLineReading Main

variable {inetAddr : StdString → UInt32} {prog : CString} {args : List CString} {items : List Item} {start : Start}
  {parser next : Parser} {name : StdString} {opt : OptionBase}

/-! ### The options of the program -/

def helpOption : OptionBase := .withoutValue helpName (UInt8.ofNat '?'.toNat) (text "print this message")

def options : List OptionBase := [roleOption, ipOption, portOption, userOption, daemonOption, helpOption]

/-- A map with some more options. -/
def insertAll (map : Std.ExtTreeMap StdString OptionBase) (opts : List OptionBase) : Std.ExtTreeMap StdString OptionBase :=
  opts.foldl (fun map opt => map.insert opt.nam opt) map

/-- The parser that `parse_check` starts with, once it has added an option of its own. -/
def table : Parser :=
  { Parser.new with options := insertAll ∅ options, ordered := options.map OptionBase.nam, mDesc := desc }

theorem names_apart : (options.map OptionBase.nam).Nodup := by decide

theorem insert_all_lookup {map : Std.ExtTreeMap StdString OptionBase} {opts : List OptionBase}
    (apart : (opts.map OptionBase.nam).Nodup) (name : StdString) (opt : OptionBase) :
    (insertAll map opts)[name]? = some opt ↔
      (opt ∈ opts ∧ opt.nam = name) ∨ (name ∉ opts.map OptionBase.nam ∧ map[name]? = some opt) := by
  induction opts generalizing map with
  | nil => simp [insertAll]
  | cons first opts ih =>
    obtain ⟨new, later⟩ := List.nodup_cons.mp apart
    change (insertAll (map.insert first.nam first) opts)[name]? = some opt ↔ _
    simp only [ih later, Std.ExtTreeMap.getElem?_insert, Std.LawfulEqCmp.compare_eq_iff_eq, List.mem_cons, List.map_cons,
      not_or]
    by_cases same : first.nam = name
    · subst same
      simp only [if_true, Option.some.injEq, not_true_eq_false, false_and, or_false]
      constructor
      · rintro (⟨inside, own⟩ | ⟨_, rfl⟩)
        · exact ⟨.inr inside, own⟩
        · exact ⟨.inl rfl, rfl⟩
      · rintro ⟨rfl | inside, own⟩
        · exact .inr ⟨new, rfl⟩
        · exact absurd (List.mem_map.mpr ⟨opt, inside, own⟩) new
    · simp only [same, if_false]
      grind

theorem table_lookup : table.options[name]? = some opt ↔ opt ∈ options ∧ opt.nam = name := by
  refine (insert_all_lookup names_apart name opt).trans ?_
  simp

/-- Options with names that are new are added. -/
theorem add_all {opts : List OptionBase} (apart : (parser.ordered ++ opts.map OptionBase.nam).Nodup)
    (known : ∀ name : StdString, name ∈ parser.options → name ∈ parser.ordered) :
    opts.foldlM Parser.add parser = .ok { parser with
      options := insertAll parser.options opts, ordered := parser.ordered ++ opts.map OptionBase.nam } := by
  induction opts generalizing parser with
  | nil =>
    simp only [List.map_nil, List.append_nil, insertAll, List.foldl_nil]
    rfl
  | cons opt opts ih =>
    have absent : parser.options.contains opt.nam = false := by
      rw [Bool.eq_false_iff]
      intro held
      have before := known opt.nam (Std.ExtTreeMap.contains_iff_mem.mp held)
      exact (List.nodup_append.mp apart).2.2 opt.nam before opt.nam List.mem_cons_self rfl
    have added : parser.add opt =
        .ok { parser with options := parser.options.insert opt.nam opt, ordered := parser.ordered ++ [opt.nam] } := by
      rw [Parser.add, absent]
      rfl
    rw [List.foldlM_cons, added, ok_then, ih]
    · simp [insertAll]
    · simpa using apart
    · intro name inside
      rcases Std.ExtTreeMap.mem_insert.mp inside with same | before
      · rw [← Std.LawfulEqCmp.compare_eq_iff_eq.mp same]
        simp
      · exact List.mem_append_left _ (known name before)

/-- What `main` adds, and what `parse_check` adds to it. -/
theorem main_checks (argv : List CString) :
    main inetAddr argv = ((table.parse argv).2.check argv.length (table.parse argv).1 >>= choose inetAddr) := by
  obtain ⟨parser, ready, same⟩ : ∃ parser, prepared = .ok parser ∧ parser = { Parser.new with
      options := insertAll ∅ options.dropLast, ordered := options.dropLast.map OptionBase.nam, mDesc := desc } := by
    have added := @add_all Parser.new options.dropLast (by decide)
      (fun _ inside => nomatch Std.ExtTreeMap.not_mem_empty inside)
    refine ⟨_, ?_, rfl⟩
    change (options.dropLast.foldlM Parser.add Parser.new >>= fun parser => .ok { parser with mDesc := desc }) = _
    rw [added]
    rfl
  have helped : parser.add helpOption = .ok table := by
    have inside : ∀ name : StdString, name ∈ parser.options → name ∈ parser.ordered := by
      intro name held
      rw [same] at held ⊢
      obtain ⟨opt, known⟩ := Option.isSome_iff_exists.mp (Std.ExtTreeMap.mem_iff_isSome_getElem?.mp held)
      rcases (insert_all_lookup (by decide) name opt).mp known with ⟨listed, own⟩ | ⟨_, nothing⟩
      · exact List.mem_map.mpr ⟨opt, listed, own⟩
      · simp at nothing
    have added := @add_all parser [helpOption] (by rw [same]; exact names_apart) inside
    obtain ⟨next, done, last⟩ := bind_ok.mp added
    cases last
    rw [done, same]
    rfl
  have absent : ¬ parser.options.contains (.ascii "help") = true := by
    intro held
    rw [Parser.add, show helpOption.nam = .ascii "help" from rfl, if_pos held] at helped
    contradiction
  rw [main, ready, ok_then, Parser.parseCheck, if_neg absent]
  change ((parser.add helpOption >>= fun parser => (parser.parse argv).2.check argv.length (parser.parse argv).1) >>= _) = _
  rw [helped]
  rfl

theorem table_unambiguous : Unambiguous table := by
  have apart : ∀ opt ∈ options, ∀ other ∈ options, opt.snam = other.snam → opt.snam ≠ 0 → opt.nam = other.nam := by decide
  rintro letter _ _ ⟨_, some, opt, known, rfl⟩ ⟨_, _, other, knownToo, same⟩
  obtain ⟨inside, rfl⟩ := table_lookup.mp known
  obtain ⟨insideToo, rfl⟩ := table_lookup.mp knownToo
  exact apart opt inside other insideToo same.symm some

/-! ### Ports -/

/-- A port is not changed by the `short` that it is kept in. -/
theorem port_survives {number : Int32} (low : 1 ≤ number.toInt) (high : number.toInt ≤ 65535) :
    (number.toInt16.toUInt16.toNat : Int) = number.toInt := by
  have whole : number.toInt = number.toBitVec.toNat := by
    have own := BitVec.toInt_eq_toNat_cond number.toBitVec
    change number.toInt = _ at own
    split at own
    · exact own
    · have bound := number.toBitVec.isLt
      omega
  have cut : number.toInt16.toUInt16.toNat = number.toBitVec.toNat % 2 ^ 16 := by
    change (number.toBitVec.signExtend 16).toNat = _
    rw [BitVec.signExtend_eq_setWidth_of_le _ (by decide), BitVec.toNat_setWidth]
  omega

theorem range_reader_iff {low high number : Int32} {value : StdString} :
    rangeReader low high value = some number ↔ Written number.toInt value.bytes ∧ low ≤ number ∧ number ≤ high := by
  simp only [rangeReader, readInt, Option.bind_eq_bind, Option.bind_eq_some_iff]
  constructor
  · rintro ⟨ret, extracted, inside⟩
    split at inside
    next bounds =>
      cases inside
      exact ⟨extract_whole_iff.mp extracted, bounds⟩
    next => contradiction
  · rintro ⟨written, bounds⟩
    exact ⟨number, extract_whole_iff.mpr written, if_pos bounds⟩

theorem read_port {value : StdString} {actual : Int16}
    (reads : (rangeReader 1 65535 value).map Int32.toInt16 = some actual) :
    Written actual.toUInt16.toNat value.bytes ∧ actual.toUInt16 ≠ 0 := by
  obtain ⟨number, ranged, rfl⟩ := Option.map_eq_some_iff.mp reads
  obtain ⟨written, low, high⟩ := range_reader_iff.mp ranged
  rw [Int32.le_iff_toInt_le] at low high
  have same := port_survives low high
  refine ⟨by rwa [same], fun zero => ?_⟩
  rw [zero] at same
  exact absurd (same ▸ low) (by decide)

/-- Every text of a port but 0 is read. -/
theorem port_read {port : UInt16} {value : StdString} (nonzero : port ≠ 0) (written : Written port.toNat value.bytes) :
    ∃ actual, (rangeReader 1 65535 value).map Int32.toInt16 = some actual := by
  have small := port.toNat_lt
  have positive : port.toNat ≠ 0 := fun zero => nonzero (UInt16.toNat_inj.mp zero)
  have same : (Int32.ofInt port.toNat).toInt = port.toNat := Int32.toInt_ofInt_of_le (by omega) (by omega)
  have low : (1 : Int32) ≤ Int32.ofInt port.toNat := by
    rw [Int32.le_iff_toInt_le, same]
    change (1 : Int) ≤ _
    omega
  have high : Int32.ofInt port.toNat ≤ (65535 : Int32) := by
    rw [Int32.le_iff_toInt_le, same]
    change _ ≤ (65535 : Int)
    omega
  have ranged : rangeReader 1 65535 value = some (Int32.ofInt port.toNat) :=
    range_reader_iff.mpr ⟨by rwa [same], low, high⟩
  exact ⟨_, congrArg (Option.map Int32.toInt16) ranged⟩

/-- A text is that of one port. -/
theorem port_written {value : StdString} {port other : Int16} (written : Written port.toUInt16.toNat value.bytes)
    (writtenToo : Written other.toUInt16.toNat value.bytes) : port = other := by
  have small := port.toUInt16.toNat_lt
  have smallToo := other.toUInt16.toNat_lt
  have same := written_unique written writtenToo (by omega) (by omega)
  have ports : port.toUInt16 = other.toUInt16 := UInt16.toNat_inj.mp (by omega)
  rw [← Int16.toInt16_toUInt16 port, ports, Int16.toInt16_toUInt16]

/-! ### `main` -/

/-- What a command line asks for. -/
structure Describes (inetAddr : StdString → UInt32) (items : List Item) (start : Start) : Prop where
  helpless : .flag helpName ∉ items
  role : lastText roleName items = some start.role
  ip : lastText ipName items = some start.ip
  reachable : inetAddr start.ip ≠ INADDR_NONE
  port : ∃ value, lastText portName items = some value ∧ Written start.port.toNat value.bytes
  own : match start with
    | .server _ _ isDaemon => isDaemon = true ↔ .flag daemonName ∈ items
    | .client _ _ user => user.length ≠ 0 ∧ lastText userName items = some user

theorem check_decides {argc : Nat} {ok helps : Bool} (known : parser.exist helpName = .ok helps) :
    parser.check argc ok =
      if (argc = 1 ∧ ok = false) ∨ helps = true then .error (.exits 0 parser.usage)
      else if ok = false then .error (.exits 1 (parser.error ++ Parser.endl ++ parser.usage))
      else .ok parser := by
  have own : parser.exist (.ascii "help") = .ok helps := known
  rw [Parser.check]
  by_cases alone : argc = 1 ∧ ok = false
  · simp only [alone, and_self, true_or, if_true]
    rfl
  · simp only [own, alone, false_or]
    rfl

theorem check_ok {argc : Nat} {ok helps : Bool} (known : parser.exist helpName = .ok helps) :
    parser.check argc ok = .ok next ↔ ok = true ∧ helps = false ∧ next = parser := by
  rw [check_decides known]
  cases ok with
  | false =>
    refine iff_of_false (fun same => ?_) (fun both => nomatch both.1)
    split at same <;> contradiction
  | true => cases helps <;> simp [eq_comm]

/-- The values that `main` gets of the options. -/
structure Got (parser : Parser) (role ip : StdString) (port : Int16) (user : StdString) (isDaemon : Bool) : Prop where
  hasRole : parser.get .string roleName = .ok role
  hasPort : parser.get .short portName = .ok port
  hasIp : parser.get .string ipName = .ok ip
  hasUser : parser.get .string userName = .ok user
  hasDaemon : parser.exist daemonName = .ok isDaemon
  known : role = serverRole ∨ role = clientRole

def unreachable (ip : StdString) : Text := text "invalid ip: " ++ ip.bytes

def nameless : Text := text "user must be specified if run as a client!"

/-- What is done with these values. -/
theorem choose_of_got {role ip user : StdString} {port : Int16} {isDaemon : Bool}
    (got : Got parser role ip port user isDaemon) :
    choose inetAddr parser =
      if inetAddr ip = INADDR_NONE then .error (.exits 1 (unreachable ip))
      else if role = serverRole then .ok (.server ip port isDaemon)
      else if user.length = 0 then .error (.exits 1 nameless)
      else .ok (.client ip port user) := by
  have apart : clientRole ≠ serverRole := by decide
  have valid : invalidIP inetAddr ip = true ↔ inetAddr ip = INADDR_NONE := beq_iff_eq
  simp only [choose, got.hasRole, got.hasPort, got.hasIp, got.hasUser, got.hasDaemon, ok_then, valid]
  rcases got.known with rfl | rfl
  · simp only [apart.symm, if_false, if_true, Bool.true_eq_false, false_and]
    split
    · rfl
    · rfl
  · simp only [if_true, if_neg apart, true_and]
    split
    · rfl
    · split
      · rfl
      · rfl

section Behind
variable (fits : Fits table args items)
  (look : ∀ name : StdString, next.options[name]? = (table.options[name]?).map (after name items))
include fits look

theorem flag_behind (inside : opt ∈ options) (lone : opt.value = none) (unset : opt.has = false) :
    next.exist opt.nam = .ok (decide (.flag opt.nam ∈ items)) := by
  have known := table_lookup.mpr ⟨inside, rfl⟩
  have same : given opt.nam items = decide (.flag opt.nam ∈ items) := by
    rw [Bool.eq_iff_iff, given_flag fits.legal known lone, decide_eq_true_eq]
  rw [exist_after look known, unset, Bool.false_or, same]

/-- An option that is needed has a text. -/
theorem value_behind {type : ValueType} {initial : type.Carrier} {read : StdString → Option type.Carrier}
    (inside : opt ∈ options)
    (valued : opt.value = some ⟨type, true, initial, read⟩) (unset : opt.has = false) (complete : Complete table items) :
    ∃ value actual, lastText opt.nam items = some value ∧ read value = some actual ∧ next.get type opt.nam = .ok actual := by
  have known := table_lookup.mpr ⟨inside, rfl⟩
  have must : opt.must = true := by rw [OptionBase.must, valued]; rfl
  have isGiven : given opt.nam items = true := by
    rcases complete opt.nam opt known must with before | isGiven
    · rw [unset] at before
      contradiction
    · exact isGiven
  obtain ⟨value, last⟩ := last_of_given fits.legal known valued isGiven
  obtain ⟨actual, reads⟩ := read_last fits.legal known valued last
  refine ⟨value, actual, last, reads, ?_⟩
  rw [get_after look known valued, last, Option.bind_some]
  exact congrArg (fun value => Except.ok (value.getD initial)) reads

/-- All that is got of the options. -/
theorem options_behind (complete : Complete table items) :
    ∃ role ip portText port, lastText roleName items = some role ∧ lastText ipName items = some ip ∧
      lastText portName items = some portText ∧ Written port.toUInt16.toNat portText.bytes ∧
      Got next role ip port ((lastText userName items).getD (.ascii "")) (decide (.flag daemonName ∈ items)) := by
  have listed : ∀ opt, opt ∈ [roleOption, ipOption, portOption, userOption, daemonOption, helpOption] → opt ∈ options :=
    fun _ => id
  obtain ⟨role, actualRole, lastRole, readsRole, hasRole⟩ :=
    value_behind fits look (listed roleOption (by simp)) rfl rfl complete
  obtain ⟨ip, actualIp, lastIp, readsIp, hasIp⟩ := value_behind fits look (listed ipOption (by simp)) rfl rfl complete
  obtain ⟨portText, port, lastPort, readsPort, hasPort⟩ :=
    value_behind fits look (listed portOption (by simp)) rfl rfl complete
  have hasUser : next.get .string userName = .ok ((lastText userName items).getD (.ascii "")) := by
    have got := get_after look (table_lookup.mpr ⟨listed userOption (by simp), rfl⟩) rfl
    rwa [show readString = some from rfl, Option.bind_fun_some] at got
  have hasDaemon := flag_behind fits look (listed daemonOption (by simp)) rfl rfl
  obtain ⟨sameRole, known⟩ : role = actualRole ∧ (role = serverRole ∨ role = clientRole) := by
    simp only [oneofReader, readString, Option.bind_eq_bind, Option.bind_some] at readsRole
    split at readsRole
    next inside => exact ⟨Option.some.inj readsRole, by simpa using inside⟩
    next => contradiction
  obtain rfl : ip = actualIp := Option.some.inj readsIp
  exact ⟨role, ip, portText, port, lastRole, lastIp, lastPort, (read_port readsPort).1,
    sameRole ▸ hasRole, hasPort, hasIp, hasUser, hasDaemon, known⟩

end Behind

theorem help_behind (fits : Fits table args items)
    (look : ∀ name : StdString, next.options[name]? = (table.options[name]?).map (after name items)) :
    next.exist helpName = .ok false ↔ .flag helpName ∉ items := by
  have inside : helpOption ∈ options := by simp [options]
  rw [show helpName = helpOption.nam from rfl, flag_behind fits look inside rfl rfl]
  simp

/-- The option for help is there behind every command line. -/
theorem help_there (prog : CString) (args : List CString) :
    ∃ helps, (table.parse (prog :: args)).2.exist helpName = .ok helps := by
  have stays := (@stays_parse table prog args).options helpName
  have known : table.options[helpName]? = some helpOption := table_lookup.mpr ⟨by simp [options], rfl⟩
  rw [show (table.started prog).options = table.options from rfl, known] at stays
  obtain ⟨opt, found, _⟩ := Option.map_eq_some_iff.mp stays
  exact ⟨opt.has, by rw [Parser.exist, found]⟩

/-- The parser behind a command line. -/
def behind (prog : CString) (items : List Item) : Parser := (items.foldl apply (table.started prog)).finished.2

theorem behind_lookup (fits : Fits table args items) (name : StdString) :
    (behind prog items).options[name]? = (table.options[name]?).map (after name items) :=
  @applied_lookup (table.started prog) items fits.legal name

theorem parse_behind (fits : Fits table args items) : (table.parse (prog :: args)).2 = behind prog items := by
  rw [parse_complete prog table_unambiguous fits, behind]

/-- What describes a start is complete. -/
theorem complete_of_describes (describes : Describes inetAddr items start) : Complete table items := by
  have needed : ∀ opt ∈ options, opt.must = true → opt.nam = roleName ∨ opt.nam = ipName ∨ opt.nam = portName := by decide
  intro name opt known must
  obtain ⟨inside, rfl⟩ := table_lookup.mp known
  refine .inr ?_
  rcases needed opt inside must with same | same | same
  · rw [same]
    exact (given_of_last describes.role).1
  · rw [same]
    exact (given_of_last describes.ip).1
  · obtain ⟨value, last, _⟩ := describes.port
    rw [same]
    exact (given_of_last last).1

theorem started_sound (done : main inetAddr (prog :: args) = .ok start) :
    ∃ items, Fits table args items ∧ Describes inetAddr items start := by
  rw [main_checks] at done
  obtain ⟨parser, checked, chosen⟩ := bind_ok.mp done
  obtain ⟨helps, knows⟩ := help_there prog args
  obtain ⟨accepted, helpless, rfl⟩ := (check_ok knows).mp checked
  obtain ⟨_, items, fits, complete⟩ := parse_sound prog accepted
  rw [helpless, parse_behind fits] at knows
  rw [parse_behind fits] at chosen
  have quiet := (help_behind fits (behind_lookup fits)).mp knows
  obtain ⟨role, ip, portText, port, lastRole, lastIp, lastPort, written, got⟩ :=
    @options_behind _ _ (behind prog items) fits (behind_lookup fits) complete
  rw [choose_of_got got] at chosen
  split at chosen
  · contradiction
  next reachable =>
    split at chosen
    next isServer =>
      cases chosen
      subst isServer
      exact ⟨items, fits, quiet, lastRole, lastIp, reachable, ⟨portText, lastPort, written⟩, decide_eq_true_iff⟩
    next noServer =>
      split at chosen
      · contradiction
      next named =>
        cases chosen
        obtain rfl : role = clientRole := got.known.resolve_left noServer
        refine ⟨items, fits, quiet, lastRole, lastIp, reachable, ⟨portText, lastPort, written⟩, named, ?_⟩
        cases last : lastText userName items with
        | none => exact absurd (by rw [last]; rfl) named
        | some user => rfl

theorem started_complete (fits : Fits table args items) (describes : Describes inetAddr items start) :
    main inetAddr (prog :: args) = .ok start := by
  have complete := complete_of_describes describes
  have accepted := (parse_accepts prog table_unambiguous fits).mpr complete
  have helpless : (table.parse (prog :: args)).2.exist helpName = .ok false := by
    rw [parse_behind fits]
    exact (help_behind fits (behind_lookup fits)).mpr describes.helpless
  obtain ⟨role, ip, portText, port, lastRole, lastIp, lastPort, written, got⟩ :=
    @options_behind _ _ (behind prog items) fits (behind_lookup fits) complete
  cases lastRole.symm.trans describes.role
  cases lastIp.symm.trans describes.ip
  obtain ⟨value, last, writtenToo⟩ := describes.port
  cases lastPort.symm.trans last
  rw [main_checks]
  refine bind_ok.mpr ⟨_, (check_ok helpless).mpr ⟨accepted, rfl, rfl⟩, ?_⟩
  rw [parse_behind fits, choose_of_got got, if_neg describes.reachable]
  cases start with
  | server ip number isDaemon =>
    obtain rfl := port_written written writtenToo
    have daemon : decide (.flag daemonName ∈ items) = isDaemon :=
      Bool.eq_iff_iff.mpr (decide_eq_true_iff.trans describes.own.symm)
    rw [daemon]
    exact if_pos rfl
  | client ip number user =>
    obtain rfl := port_written written writtenToo
    obtain ⟨named, lastUser⟩ := describes.own
    have apart : ¬ Start.role (.client ip port user) = serverRole := by
      change ¬ clientRole = serverRole
      decide
    rw [lastUser, if_neg apart]
    exact if_neg named

/-- How `main` ends when it does not go on. -/
inductive EndsOrderly (inetAddr : StdString → UInt32) (usage : Text) : Ended → Prop where
  | helped : EndsOrderly inetAddr usage (.exits 0 usage)
  /-- The first of the errors, and how it is done. -/
  | rejected (error : Text) : EndsOrderly inetAddr usage (.exits 1 (error ++ Parser.endl ++ usage))
  | unreachable {ip : StdString} (none : inetAddr ip = INADDR_NONE) : EndsOrderly inetAddr usage (.exits 1 (unreachable ip))
  | nameless : EndsOrderly inetAddr usage (.exits 1 nameless)

theorem check_ends {argc : Nat} {ok helps : Bool} {ended : Ended} (known : parser.exist helpName = .ok helps)
    (done : parser.check argc ok = .error ended) : EndsOrderly inetAddr parser.usage ended := by
  rw [check_decides known] at done
  split at done
  · cases done
    exact .helped
  · split at done
    · cases done
      exact .rejected _
    · contradiction

/-- The program goes on exactly when its arguments are spelled in words that fit its
options, and what is said last describes how. -/
theorem program_starts_iff (inetAddr : StdString → UInt32) (prog : CString) (args : List CString) (start : Start) :
    main inetAddr (prog :: args) = .ok start ↔ ∃ items, Fits table args items ∧ Describes inetAddr items start :=
  ⟨started_sound, fun ⟨_, fits, describes⟩ => started_complete fits describes⟩

/-- Initials in a row, the last one with its value; a port behind a blank. -/
example : main (fun _ => 0) (["cr", "-dr", "server", "--ip", "10.0.0.1", "--port= 40000"].map .ascii) =
    .ok (.server (.ascii "10.0.0.1") (-25536) true) := by decide +kernel

/-- The parser as a command line finds it: with the name of the program in it, for which
there may be no argument. -/
def calledAs : List CString → Parser
  | [] => table
  | prog :: _ => table.started prog

private theorem named_ends_orderly (inetAddr : StdString → UInt32) (prog : CString) (args : List CString) :
    (∃ start, main inetAddr (prog :: args) = .ok start) ∨
      ∃ ended, main inetAddr (prog :: args) = .error ended ∧ EndsOrderly inetAddr (table.started prog).usage ended := by
  obtain ⟨helps, knows⟩ := help_there prog args
  rw [main_checks]
  cases checked : (table.parse (prog :: args)).2.check (prog :: args).length (table.parse (prog :: args)).1 with
  | error ended =>
    have ends : EndsOrderly inetAddr _ ended := check_ends knows checked
    rw [stays_usage (stays_parse prog args)] at ends
    exact .inr ⟨ended, rfl, ends⟩
  | ok parser =>
    obtain ⟨accepted, _, rfl⟩ := (check_ok knows).mp checked
    obtain ⟨_, items, fits, complete⟩ := parse_sound prog accepted
    obtain ⟨role, ip, portText, port, _, _, _, _, got⟩ :=
      @options_behind _ _ (behind prog items) fits (behind_lookup fits) complete
    rw [ok_then, parse_behind fits, choose_of_got got]
    split
    next none => exact .inr ⟨_, rfl, .unreachable none⟩
    next =>
      split
      · exact .inl ⟨_, rfl⟩
      · split
        · exact .inr ⟨_, rfl, .nameless⟩
        · exact .inl ⟨_, rfl⟩

/-- Whatever it is called with, no arguments at all included, `main` goes on, or it exits
with the usage, or with an error, a bad address or a missing user. No `cmdline_error`
leaves it, and it has always one of the two roles. -/
theorem main_ends_orderly (inetAddr : StdString → UInt32) (argv : List CString) :
    (∃ start, main inetAddr argv = .ok start) ∨
      ∃ ended, main inetAddr argv = .error ended ∧ EndsOrderly inetAddr (calledAs argv).usage ended := by
  cases argv with
  | nil =>
    have helpless : (table.parse []).2.exist helpName = .ok false := by
      have known : table.options[helpName]? = some helpOption := table_lookup.mpr ⟨by simp [options], rfl⟩
      rw [Parser.exist, show (table.parse []).2.options = table.options from rfl, known]
      rfl
    have fails : main inetAddr [] = .error (.exits 1 ((table.parse []).2.error ++ Parser.endl ++ table.usage)) := by
      rw [main_checks, check_decides helpless]
      rfl
    exact .inr ⟨_, fails, .rejected _⟩
  | cons prog args => exact named_ends_orderly inetAddr prog args

/-! ### What can be typed -/

/-- An argument can hold a text without a terminator in it, up to some length. -/
def Typable (text : StdString) : Prop := ∃ arg : CString, arg.string = text

theorem typable_of_suffix {text : StdString} {arg : CString} (suffix : text.bytes <:+ arg.bytes) : Typable text :=
  ⟨⟨text.bytes, fun nul => arg.noNul (suffix.subset nul), Nat.lt_of_le_of_lt suffix.length_le arg.short⟩, rfl⟩

theorem word_typed {arg : CString} {following : Option CString} {value : StdString} (word : Word parser arg following items)
    (inside : .setting name value ∈ items) : Typable value := by
  cases word with
  | assigned split _ =>
    cases List.mem_singleton.mp inside
    have suffix : value.bytes <:+ arg.bytes := ⟨dash :: dash :: (name.bytes ++ [equals]), by simp [split]⟩
    exact typable_of_suffix suffix
  | long text _ _ =>
    cases List.mem_singleton.mp inside
    exact ⟨text, rfl⟩
  | longFlag _ _ => simp at inside
  | nothing _ => simp at inside
  | initials _ _ _ _ => simp at inside
  | initialsValue text _ _ _ _ =>
    simp only [List.mem_append, List.mem_map, reduceCtorEq, and_false, exists_false, List.mem_singleton, Item.setting.injEq,
      false_or] at inside
    exact ⟨text, inside.2.symm⟩
  | other _ => simp at inside

/-- Every value on a command line is a text that can be typed. -/
theorem spelled_typed {value : StdString} (spelled : Spells parser args items) (inside : .setting name value ∈ items) :
    Typable value := by
  induction spelled with
  | nil => cases inside
  | one word _ ih =>
    rcases List.mem_append.mp inside with here | later
    · exact word_typed word here
    · exact ih later
  | two word _ ih =>
    rcases List.mem_append.mp inside with here | later
    · exact word_typed word here
    · exact ih later

/-- What `main` can go on with. -/
structure Startable (inetAddr : StdString → UInt32) (start : Start) : Prop where
  ip : Typable start.ip
  reachable : inetAddr start.ip ≠ INADDR_NONE
  port : start.port ≠ 0
  own : match start with
    | .server _ _ _ => True
    | .client _ _ user => user.length ≠ 0 ∧ Typable user

theorem startable_of_started (done : main inetAddr (prog :: args) = .ok start) : Startable inetAddr start := by
  obtain ⟨items, fits, describes⟩ := started_sound done
  have typed : ∀ {name value : StdString}, lastText name items = some value → Typable value :=
    fun last => spelled_typed fits.spelled (given_of_last last).2
  have known : table.options[portName]? = some portOption := table_lookup.mpr ⟨by simp [options], rfl⟩
  obtain ⟨value, last, written⟩ := describes.port
  obtain ⟨port, reads⟩ := read_last fits.legal known rfl last
  obtain ⟨writtenToo, nonzero⟩ := read_port reads
  refine ⟨typed describes.ip, describes.reachable, ?_, ?_⟩
  · have own : start.port = port.toUInt16 := by
      cases start with
      | server ip number isDaemon => exact congrArg Int16.toUInt16 (port_written written writtenToo)
      | client ip number user => exact congrArg Int16.toUInt16 (port_written written writtenToo)
    rwa [own]
  · cases start with
    | server ip number isDaemon => trivial
    | client ip number user => exact ⟨describes.own.1, typed describes.own.2⟩

theorem numeral_typable {number : Nat} (small : number < 2 ^ 16) : ∃ arg : CString, arg.string.bytes = numeral number := by
  have noNul : 0 ∉ numeral number := fun nul => absurd (numeral_digits number 0 nul).1 (by decide)
  have digits : (numeral number).length ≤ 5 := by
    rw [numeral, List.length_map]
    exact (Nat.length_toDigits_le_iff (by decide) (by decide)).mpr (by omega)
  exact ⟨⟨numeral number, noNul, by omega⟩, rfl⟩

theorem fits_setting {held : OptionValue} {arg value : CString} (inside : opt ∈ options) (valued : opt.value = some held)
    (reads : ∃ actual, held.read value.string = some actual) (split : arg.bytes = dash :: dash :: opt.nam.bytes)
    (plain : equals ∉ opt.nam.bytes) (others : Fits table args items) :
    Fits table (arg :: value :: args) (.setting opt.nam value.string :: items) := by
  obtain ⟨actual, reads⟩ := reads
  refine ⟨.two (.long value split plain) others.spelled, List.forall_mem_cons.mpr ⟨?_, others.legal⟩⟩
  exact ⟨opt, held, actual, table_lookup.mpr ⟨inside, rfl⟩, valued, reads⟩

theorem fits_flag {arg : CString} (inside : opt ∈ options) (lone : opt.value = none)
    (split : arg.bytes = dash :: dash :: opt.nam.bytes)
    (plain : equals ∉ opt.nam.bytes) (others : Fits table args items) : Fits table (arg :: args) (.flag opt.nam :: items) :=
  ⟨.one (.longFlag split plain) others.spelled,
    List.forall_mem_cons.mpr ⟨⟨opt, table_lookup.mpr ⟨inside, rfl⟩, lone⟩, others.legal⟩⟩

/-- What every start is called with, in front of what is its own. -/
theorem fits_front {role ip port : CString} (known : role.string ∈ [serverRole, clientRole])
    (reads : ∃ actual, (rangeReader 1 65535 port.string).map Int32.toInt16 = some actual) (others : Fits table args items) :
    Fits table (.ascii "--role" :: role :: .ascii "--ip" :: ip :: .ascii "--port" :: port :: args)
      (.setting roleName role.string :: .setting ipName ip.string :: .setting portName port.string :: items) := by
  have hasRole : roleOption ∈ options := by simp [options]
  have hasIp : ipOption ∈ options := by simp [options]
  have hasPort : portOption ∈ options := by simp [options]
  refine fits_setting hasRole rfl ⟨role.string, if_pos known⟩ rfl (by decide) ?_
  refine fits_setting hasIp rfl ⟨ip.string, rfl⟩ rfl (by decide) ?_
  exact fits_setting hasPort rfl reads rfl (by decide) others

theorem started_of_startable (prog : CString) (startable : Startable inetAddr start) :
    ∃ args, main inetAddr (prog :: args) = .ok start := by
  have nothing : Fits table [] [] := ⟨.nil, fun _ none => nomatch none⟩
  obtain ⟨⟨ip, sameIp⟩, reachable, nonzero, own⟩ := startable
  obtain ⟨port, digits⟩ := numeral_typable start.port.toNat_lt
  have written : Written start.port.toNat port.string.bytes := digits ▸ written_numeral start.port.toNat
  have reads := port_read nonzero written
  cases start with
  | server address number isDaemon =>
    obtain rfl : ip.string = address := sameIp
    have known : (CString.ascii "server").string ∈ [serverRole, clientRole] := by decide
    cases isDaemon with
    | false => exact ⟨_, started_complete (fits_front known reads nothing)
        ⟨by simp, rfl, rfl, reachable, ⟨_, rfl, written⟩, by simp⟩⟩
    | true =>
      have hasDaemon : daemonOption ∈ options := by simp [options]
      have daemon : Fits table [.ascii "--daemon"] [.flag daemonName] :=
        fits_flag hasDaemon rfl rfl (by decide) nothing
      have apart : helpName ≠ daemonName := by decide
      exact ⟨_, started_complete (fits_front known reads daemon)
        ⟨by simp [apart], rfl, rfl, reachable, ⟨_, rfl, written⟩, by simp⟩⟩
  | client address number user =>
    obtain rfl : ip.string = address := sameIp
    obtain ⟨named, value, rfl⟩ := own
    have known : (CString.ascii "client").string ∈ [serverRole, clientRole] := by decide
    have hasUser : userOption ∈ options := by simp [options]
    have called : Fits table [.ascii "--user", value] [.setting userName value.string] :=
      fits_setting hasUser rfl ⟨value.string, rfl⟩ rfl (by decide) nothing
    exact ⟨_, started_complete (fits_front known reads called)
      ⟨by simp, rfl, rfl, reachable, ⟨_, rfl, written⟩, ⟨named, rfl⟩⟩⟩

/-- What `main` goes on with on some command line: any address that there is, any port
but 0, and for a client any name but the empty one. -/
theorem every_start_can_be_typed (inetAddr : StdString → UInt32) (prog : CString) (start : Start) :
    (∃ args, main inetAddr (prog :: args) = .ok start) ↔ Startable inetAddr start :=
  ⟨fun ⟨_, done⟩ => startable_of_started done, started_of_startable prog⟩

end ChatRoom.ProgramStart
