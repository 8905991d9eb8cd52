import Pelagos.Library.Execution
import Pelagos.Library.Tokens
import Pelagos.Pfctl.Requests

/-!
# What requests can write into the anchor

Every rule is written from a template.  The names of interfaces and the protocol are checked before
they are kept, the networks and the addresses are not.
-/

namespace Pelagos.Pfctl

open Text

/-! ## The words of the rules -/

def natWords (setup : UtunSetup) : List String :=
  ["nat", "on", setup.egressIface, "inet", "from", setup.ipv4Cidr, "to", "any", "->",
    "(" ++ setup.egressIface ++ ")"]

def loopbackRdrWords (rule : RdrRule) : List String :=
  ["rdr", "pass", "on", "lo0", "proto", rule.proto, "from", "any", "to", "127.0.0.1", "port",
    rule.hostPort.toNat.repr, "->", rule.vmIp, "port", rule.vmPort.toNat.repr]

def egressRdrWords (egress : String) (rule : RdrRule) : List String :=
  ["rdr", "pass", "on", egress, "proto", rule.proto, "from", "any", "to", "any", "port",
    rule.hostPort.toNat.repr, "->", rule.vmIp, "port", rule.vmPort.toNat.repr]

def passWords (setup : UtunSetup) : List String :=
  ["pass", "quick", "inet", "from", setup.ipv4Cidr, "to", setup.ipv4Cidr]

/-- One line of words for each rule: a translation rule and a filter rule for every active utun, and
one redirection for every forward, or two when a utun is active. -/
def DaemonState.templates (state : DaemonState) (order : UtunOrder) : List (List String) :=
  let anyEgress := (state.setups order).head?.map UtunSetup.egressIface
  (state.setups order).map natWords ++
    (state.rdrRules.flatMap fun rule =>
      loopbackRdrWords rule :: (anyEgress.map fun egress => egressRdrWords egress rule).toList) ++
    (state.setups order).map passWords

/-- The text reads back as one line for each template, with its words as tokens, and every word,
those that came with a request among them, is a single token. -/
def Uninjected (state : DaemonState) : Prop :=
  ∀ order,
    (lines (state.anchorText order)).map tokens =
        (state.templates order).map (List.flatMap tokens) ∧
      ∀ words ∈ state.templates order, ∀ word ∈ words, (tokens word).length = 1

/-- The fields of the request that are kept without a check are single words, as far as the request
gets to keep them. -/
def SingleWords {σ Address : Type} (host : Host σ) (rules : TextRules Address) (world : World σ) :
    Request → Prop
  | .setupUtun iface ipv4Addr ipv4Peer ipv4Cidr egressIface =>
      SetupAccepted host rules iface ipv4Addr ipv4Peer egressIface world → IsWord ipv4Cidr
  | .addRdr proto _ vmIp _ => proto = "tcp" ∨ proto = "udp" → IsWord vmIp
  | .teardownUtun _ | .removeRdr _ _ | .createUtun | .assignUtunAlias _ _ => True

/-! ## One text -/

theorem natRule_eq (setup : UtunSetup) : natRule setup = unwords (natWords setup) ++ "\n" := by
  have front : "nat on " = "nat" ++ " " ++ "on" ++ " " := by decide
  have source : " inet from " = " " ++ "inet" ++ " " ++ "from" ++ " " := by decide
  have target : " to any -> (" = " " ++ "to" ++ " " ++ "any" ++ " " ++ "->" ++ " " ++ "(" := by
    decide
  have back : ")\n" = ")" ++ "\n" := by decide
  unfold natRule natWords
  rw [front, source, target, back]
  simp only [unwords_cons_cons, unwords_singleton, String.append_assoc]

theorem loopbackRdrRule_eq (rule : RdrRule) :
    loopbackRdrRule rule = unwords (loopbackRdrWords rule) ++ "\n" := by
  have front : "rdr pass on lo0 proto " =
      "rdr" ++ " " ++ "pass" ++ " " ++ "on" ++ " " ++ "lo0" ++ " " ++ "proto" ++ " " := by decide
  have middle : " from any to 127.0.0.1 port " =
      " " ++ "from" ++ " " ++ "any" ++ " " ++ "to" ++ " " ++ "127.0.0.1" ++ " " ++ "port" ++
        " " := by decide
  have arrow : " -> " = " " ++ "->" ++ " " := by decide
  have port : " port " = " " ++ "port" ++ " " := by decide
  unfold loopbackRdrRule loopbackRdrWords
  rw [front, middle, arrow, port]
  simp only [unwords_cons_cons, unwords_singleton, String.append_assoc]

theorem egressRdrRule_eq (egress : String) (rule : RdrRule) :
    egressRdrRule egress rule = unwords (egressRdrWords egress rule) ++ "\n" := by
  have front : "rdr pass on " = "rdr" ++ " " ++ "pass" ++ " " ++ "on" ++ " " := by decide
  have proto : " proto " = " " ++ "proto" ++ " " := by decide
  have middle : " from any to any port " =
      " " ++ "from" ++ " " ++ "any" ++ " " ++ "to" ++ " " ++ "any" ++ " " ++ "port" ++ " " := by
    decide
  have arrow : " -> " = " " ++ "->" ++ " " := by decide
  have port : " port " = " " ++ "port" ++ " " := by decide
  unfold egressRdrRule egressRdrWords
  rw [front, proto, middle, arrow, port]
  simp only [unwords_cons_cons, unwords_singleton, String.append_assoc]

theorem passRule_eq (setup : UtunSetup) : passRule setup = unwords (passWords setup) ++ "\n" := by
  have front : "pass quick inet from " =
      "pass" ++ " " ++ "quick" ++ " " ++ "inet" ++ " " ++ "from" ++ " " := by decide
  have target : " to " = " " ++ "to" ++ " " := by decide
  unfold passRule passWords
  rw [front, target]
  simp only [unwords_cons_cons, unwords_singleton, String.append_assoc]

theorem rdrRulesOf_eq (anyEgress : Option String) (rule : RdrRule) :
    rdrRulesOf anyEgress rule = (loopbackRdrWords rule ::
      (anyEgress.map fun egress => egressRdrWords egress rule).toList).map
        fun words => unwords words ++ "\n" := by
  rw [rdrRulesOf, loopbackRdrRule_eq]
  cases anyEgress with
  | none => rfl
  | some egress =>
      rw [Option.map_some, Option.map_some, egressRdrRule_eq]
      rfl

theorem anchorText_eq_unlines (state : DaemonState) (order : UtunOrder) :
    state.anchorText order = unlines (state.templates order) := by
  have nat_rules : natRule = fun setup => unwords (natWords setup) ++ "\n" := funext natRule_eq
  have pass_rules : passRule = fun setup => unwords (passWords setup) ++ "\n" :=
    funext passRule_eq
  have rdr_rules (anyEgress : Option String) : rdrRulesOf anyEgress = fun rule =>
      (loopbackRdrWords rule ::
        (anyEgress.map fun egress => egressRdrWords egress rule).toList).map
          fun words => unwords words ++ "\n" := funext fun rule => rdrRulesOf_eq anyEgress rule
  rw [DaemonState.anchorText, DaemonState.anchorRules, unlines, DaemonState.templates, nat_rules,
    pass_rules, rdr_rules]
  simp only [List.map_append, List.map_map, List.map_flatMap, Function.comp_def]

theorem isWord_repr (number : Nat) : IsWord number.repr := by
  refine isWord_of_visible (fun char member => ?_) Nat.repr_ne_empty
  rw [Nat.toList_repr] at member
  have digit : char.isDigit = true := Nat.isDigit_of_mem_toDigits (by decide) (by decide) member
  exact (asciiRules fun _ => (none : Option Unit)).visible char
    (by simp [asciiRules, Char.isAlphanum, digit])

/-! ## When every word is single -/

/-- The words that a utun contributes are single. -/
def UtunSetup.SingleWords (setup : UtunSetup) : Prop :=
  IsWord setup.egressIface ∧ IsWord ("(" ++ setup.egressIface ++ ")") ∧ IsWord setup.ipv4Cidr

/-- The words that a forward contributes are single. -/
def RdrRule.SingleWords (rule : RdrRule) : Prop := IsWord rule.proto ∧ IsWord rule.vmIp

/-- The words that the templates share. -/
theorem isWord_constants : IsWord "nat" ∧ IsWord "on" ∧ IsWord "inet" ∧ IsWord "from" ∧
    IsWord "to" ∧ IsWord "any" ∧ IsWord "->" ∧ IsWord "rdr" ∧ IsWord "pass" ∧ IsWord "lo0" ∧
    IsWord "proto" ∧ IsWord "127.0.0.1" ∧ IsWord "port" ∧ IsWord "quick" := by
  decide

theorem natWords_single (setup : UtunSetup) :
    (∀ word ∈ natWords setup, IsWord word) ↔ setup.SingleWords := by
  simp only [natWords, List.forall_mem_cons, isWord_constants, true_and, UtunSetup.SingleWords]
  exact ⟨fun words => ⟨words.1, words.2.2.1, words.2.1⟩,
    fun words => ⟨words.1, words.2.2, words.2.1, by simp⟩⟩

theorem passWords_single {setup : UtunSetup} (single : setup.SingleWords) :
    ∀ word ∈ passWords setup, IsWord word := by
  simp only [passWords, List.forall_mem_cons, isWord_constants, true_and]
  exact ⟨single.2.2, single.2.2, by simp⟩

theorem loopbackRdrWords_single (rule : RdrRule) :
    (∀ word ∈ loopbackRdrWords rule, IsWord word) ↔ rule.SingleWords := by
  simp only [loopbackRdrWords, List.forall_mem_cons, isWord_constants, isWord_repr, true_and,
    RdrRule.SingleWords]
  exact ⟨fun words => ⟨words.1, words.2.1⟩, fun words => ⟨words.1, words.2, by simp⟩⟩

theorem egressRdrWords_single {egress : String} (egress_word : IsWord egress) {rule : RdrRule}
    (single : rule.SingleWords) : ∀ word ∈ egressRdrWords egress rule, IsWord word := by
  simp only [egressRdrWords, List.forall_mem_cons, isWord_constants, isWord_repr, true_and]
  exact ⟨egress_word, single.1, single.2, by simp⟩

theorem mem_setups {state : DaemonState} {order : UtunOrder} {setup : UtunSetup} :
    setup ∈ state.setups order ↔ ∃ iface, state.activeUtuns.lookup iface = some setup := by
  simp [DaemonState.setups, order.complete]

/-- The anchor holds what its templates say exactly when what is kept consists of single words. -/
theorem uninjected_iff {state : DaemonState} :
    Uninjected state ↔
      (∀ iface setup, state.activeUtuns.lookup iface = some setup → setup.SingleWords) ∧
        ∀ rule ∈ state.rdrRules, rule.SingleWords := by
  have words_iff : Uninjected state ↔
      ∀ order, ∀ words ∈ state.templates order, ∀ word ∈ words, IsWord word := by
    refine forall_congr' fun order => ?_
    rw [anchorText_eq_unlines]
    exact lines_unlines_iff
  rw [words_iff]
  constructor
  · intro all_words
    constructor
    · intro iface setup active
      refine (natWords_single setup).mp (all_words (.sorted _) (natWords setup) ?_)
      exact List.mem_append_left _ (List.mem_append_left _
        (List.mem_map_of_mem (mem_setups.mpr ⟨iface, active⟩)))
    · intro rule kept
      refine (loopbackRdrWords_single rule).mp (all_words (.sorted _) (loopbackRdrWords rule) ?_)
      exact List.mem_append_left _ (List.mem_append_right _
        (List.mem_flatMap.mpr ⟨rule, kept, List.mem_cons_self⟩))
  · rintro ⟨utuns, forwards⟩ order words member
    have setup_single (setup : UtunSetup) (active : setup ∈ state.setups order) :
        setup.SingleWords := by
      obtain ⟨iface, found⟩ := mem_setups.mp active
      exact utuns iface setup found
    simp only [DaemonState.templates, List.mem_append, List.mem_map, List.mem_flatMap,
      List.mem_cons, Option.mem_toList, Option.map_eq_some_iff] at member
    rcases member with (⟨setup, active, rfl⟩ | ⟨rule, kept, rfl | loaded⟩) | ⟨setup, active, rfl⟩
    · exact (natWords_single setup).mpr (setup_single setup active)
    · exact (loopbackRdrWords_single rule).mpr (forwards rule kept)
    · obtain ⟨egress, ⟨setup, first, rfl⟩, rfl⟩ := loaded
      have active : setup ∈ state.setups order := List.mem_of_mem_head? first
      exact egressRdrWords_single (setup_single setup active).1 (forwards rule kept)
    · exact passWords_single (setup_single setup active)

/-! ## Requests -/

section Requests

variable {σ Address : Type} {host : Host σ} {rules : TextRules Address}

theorem visible_of_isSafeIface {name : String} (safe : isSafeIface rules name = true) :
    name ≠ "" ∧ ∀ char ∈ name.toList, isWhiteSpace char = false := by
  rw [isSafeIface, Bool.and_eq_true, List.all_eq_true] at safe
  obtain ⟨nonempty, chars⟩ := safe
  refine ⟨by simpa using nonempty, fun char member => ?_⟩
  have allowed := chars char member
  simp only [Bool.or_eq_true, beq_iff_eq] at allowed
  rcases allowed with (letter | rfl) | rfl
  · exact rules.visible char letter
  · rfl
  · rfl

/-- Of a utun with a safe egress interface only the network can add words. -/
theorem singleWords_of_safe {egress : String} (safe : isSafeIface rules egress = true)
    (cidr : String) : UtunSetup.SingleWords ⟨egress, cidr⟩ ↔ IsWord cidr := by
  obtain ⟨nonempty, visible⟩ := visible_of_isSafeIface safe
  refine ⟨fun single => single.2.2, fun word => ⟨?_, ?_, word⟩⟩
  · exact isWord_of_visible visible nonempty
  · refine isWord_of_visible (fun char member => ?_) fun empty => ?_
    · simp only [String.toList_append, List.mem_append] at member
      rcases member with (front | inner) | back
      · obtain rfl : char = '(' := by simpa using front
        rfl
      · exact visible char inner
      · obtain rfl : char = ')' := by simpa using back
        rfl
    · simpa using congrArg String.toList empty

theorem singleWords_of_proto {proto : String} (valid : proto = "tcp" ∨ proto = "udp")
    (hostPort : UInt16) (vmIp : String) (vmPort : UInt16) :
    RdrRule.SingleWords ⟨proto, hostPort, vmIp, vmPort⟩ ↔ IsWord vmIp := by
  have proto_word : IsWord proto := by
    rcases valid with rfl | rfl <;> decide
  exact and_iff_right proto_word

theorem uninjected_withUtun {state : DaemonState} (before : Uninjected state) (iface : String)
    (setup : UtunSetup) : Uninjected (state.withUtun iface setup) ↔ setup.SingleWords := by
  obtain ⟨utuns, forwards⟩ := uninjected_iff.mp before
  rw [uninjected_iff]
  constructor
  · rintro ⟨after, -⟩
    exact after iface setup (Finmap.lookup_insert _)
  · refine fun single => ⟨fun other found active => ?_, forwards⟩
    rw [DaemonState.withUtun, HashMap.lookup_insert_eq] at active
    split at active
    · exact Option.some.inj active ▸ single
    · exact utuns other found active

theorem uninjected_withRdr {state : DaemonState} (before : Uninjected state) (rule : RdrRule) :
    Uninjected (state.withRdr rule) ↔ rule.SingleWords := by
  obtain ⟨utuns, forwards⟩ := uninjected_iff.mp before
  rw [uninjected_iff]
  constructor
  · rintro ⟨-, after⟩
    exact after rule (List.mem_append_right _ List.mem_cons_self)
  · refine fun single => ⟨utuns, fun other kept => ?_⟩
    rcases List.mem_append.mp kept with old | new
    · exact forwards other old
    · exact List.mem_singleton.mp new ▸ single

theorem uninjected_withoutRdr {state : DaemonState} (before : Uninjected state) (proto : String)
    (hostPort : UInt16) : Uninjected (state.withoutRdr proto hostPort) := by
  obtain ⟨utuns, forwards⟩ := uninjected_iff.mp before
  exact uninjected_iff.mpr
    ⟨utuns, fun rule kept => forwards rule (List.mem_of_mem_filter kept)⟩

theorem uninjected_tornDown {state : DaemonState} (before : Uninjected state) (iface : String) :
    Uninjected (state.tornDown iface) := by
  obtain ⟨utuns, forwards⟩ := uninjected_iff.mp before
  refine uninjected_iff.mpr ⟨fun other setup active => ?_, fun rule kept => ?_⟩
  · rw [DaemonState.tornDown, HashMap.lookup_erase_eq] at active
    split at active
    · cases active
    · exact utuns other setup active
  · rw [DaemonState.tornDown] at kept
    dsimp only at kept
    split at kept
    · cases kept
    · exact forwards rule kept

/-- One request keeps the anchor free of foreign words exactly when its unchecked fields are single
words. -/
theorem uninjected_request {world : World σ} (before : Uninjected world.state) (request : Request)
    (order : UtunOrder) :
    SingleWords host rules world request ↔
      Uninjected (handleRequest host rules order request world).2.state := by
  cases request with
  | setupUtun iface ipv4Addr ipv4Peer ipv4Cidr egressIface =>
      rw [handleRequest, map_apply]
      by_cases accepted : SetupAccepted host rules iface ipv4Addr ipv4Peer egressIface world
      · rw [handleSetupUtun_of_accepted accepted, keepsState_reloadNatAnchor, state_setupWorld,
          uninjected_withUtun before, singleWords_of_safe accepted.2.1]
        exact forall_prop_of_true accepted
      · rw [(handleSetupUtun_of_refused accepted).2]
        exact iff_of_true (fun kept => absurd kept accepted) before
  | teardownUtun iface =>
      rw [handleRequest, map_apply, state_handleTeardownUtun]
      exact iff_of_true trivial (uninjected_tornDown before iface)
  | addRdr proto hostPort vmIp vmPort =>
      rw [handleRequest, map_apply]
      by_cases valid : proto = "tcp" ∨ proto = "udp"
      · rw [handleAddRdr_of_valid valid, keepsState_reloadNatAnchor,
          uninjected_withRdr (uninjected_withoutRdr before proto hostPort),
          singleWords_of_proto valid]
        exact forall_prop_of_true valid
      · rw [handleAddRdr_of_invalid valid]
        exact iff_of_true (fun kept => absurd kept valid) before
  | removeRdr proto hostPort =>
      rw [handleRequest, map_apply, handleRemoveRdr_eq, keepsState_reloadNatAnchor]
      exact iff_of_true trivial (uninjected_withoutRdr before proto hostPort)
  | createUtun => exact iff_of_true trivial before
  | assignUtunAlias iface addr =>
      rw [handleRequest, map_apply]
      have state_eq : (handleAssignUtunAlias host rules iface addr world).2.state = _ ∨ _ :=
        state_handleAssignUtunAlias iface addr
      rcases state_eq with same | changed
      · rw [same]
        exact iff_of_true trivial before
      · rw [changed]
        exact iff_of_true trivial before

/-- Answer a request with an order in which the active utuns are visited. -/
def answer (host : Host σ) (rules : TextRules Address) (world : World σ)
    (entry : Request × UtunOrder) : World σ :=
  (handleRequest host rules entry.2 entry.1 world).2

end Requests

theorem uninjected_new : Uninjected .new := by
  refine uninjected_iff.mpr ⟨fun iface setup active => ?_, fun rule kept => ?_⟩
  · simp [DaemonState.new] at active
  · cases kept

/-- Whatever the host answers and whatever was requested before: in all states that a sequence of
requests leads to, no request has added a word to the anchor, if and only if the network of every
utun set up and the address of every forward added is a single word. -/
theorem anchor_uninjected_iff {σ Address : Type} (host : Host σ) (rules : TextRules Address)
    (system : σ) (requests : List (Request × UtunOrder)) :
    Execution.Always (fun world entry => some (answer host rules world entry))
        (fun world => Uninjected world.state) requests ⟨system, .new⟩ ↔
      Execution.Guarded (fun world entry => some (answer host rules world entry))
        (fun world entry => SingleWords host rules world entry.1) requests ⟨system, .new⟩ := by
  refine Execution.always_iff_guarded (fun before stepped => ?_) uninjected_new
    (Execution.run_total (answer host rules) requests ⟨system, .new⟩)
  obtain rfl := Option.some.inj stepped
  exact uninjected_request before _ _

/-- A first request must keep to single words. -/
theorem singleWords_of_always {σ Address : Type} {host : Host σ} {rules : TextRules Address}
    {system : σ} {request : Request} {order : UtunOrder}
    (always : Execution.Always (fun world entry => some (answer host rules world entry))
      (fun world => Uninjected world.state) [(request, order)] ⟨system, .new⟩) :
    SingleWords host rules ⟨system, .new⟩ request := by
  have kept : Uninjected (answer host rules ⟨system, .new⟩ (request, order)).state :=
    always [(request, order)] List.prefix_rfl _ rfl
  have initially : Uninjected (World.mk system .new).state := uninjected_new
  exact (uninjected_request initially request order).mpr kept

/-- A host on which every call succeeds. -/
def quietHost : Host Unit where
  perform _ _ := (none, ())
  createUtun _ := (.ok "utun9", ())

/-- One forward to an address with a line break in it loads a rule of its sender's choice. -/
theorem forward_injects_rule :
    ¬ ∀ (rules : TextRules Unit) (requests : List (Request × UtunOrder)),
      Execution.Always (fun world entry => some (answer quietHost rules world entry))
        (fun world => Uninjected world.state) requests ⟨(), .new⟩ := by
  intro uninjected
  have single := singleWords_of_always (uninjected (asciiRules fun _ => none)
    [(.addRdr "tcp" 2222 "10.0.0.1 port 22\npass quick all\n" 22, .sorted _)])
  have not_single : ¬ IsWord "10.0.0.1 port 22\npass quick all\n" := by decide
  exact not_single (single (Or.inl rfl))

end Pelagos.Pfctl
