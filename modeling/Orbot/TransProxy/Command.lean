import Orbot.Java.Text

/-! # iptables command lines

The transparent proxy only ever speaks to the kernel through command lines it
assembles piece by piece. A command keeps those pieces: the program it is run
through, the table, the action, the chain, the matches in the order they are
appended, and the target. `Command.text` is the line the shell receives.
-/

namespace Orbot.TransProxy

open Java (Text)

/-- The address family a command is written for: IPv4 commands start with the
    value of `ipTablesPath`, IPv6 commands with that of `ip6tablesPath`. -/
inductive Family where
  | ipv4
  | ipv6
  deriving Repr, DecidableEq

inductive Table where
  | nat
  | filter
  deriving Repr, DecidableEq

inductive Chain where
  | output
  | prerouting
  deriving Repr, DecidableEq

inductive Proto where
  | tcp
  | udp
  deriving Repr, DecidableEq

/-- One appended match. -/
inductive Match where
  | proto (protocol : Proto)
  /-- `ALLOW_LOCAL` -/
  | notLocalhost
  | inInterface (name : Text)
  | outLoopback
  | owner (uid : Int)
  | notOwner (uid : Int)
  /-- `-m tcp --syn` -/
  | tcpSyn
  /-- `-m tcp` or `-m udp` on its own: it only loads the extension. -/
  | module (protocol : Proto)
  | dport (port : Int)
  deriving Repr, DecidableEq

inductive Target where
  | accept
  | drop
  | reject
  | redirect (port : Int)
  deriving Repr, DecidableEq

/-- What a chain holds: the matches and the target. -/
structure Rule where
  conditions : List Match
  target : Target
  deriving Repr, DecidableEq

inductive Action where
  | append
  | delete
  deriving Repr, DecidableEq

/-- One call of `executeCommand`. `tool` is the path variable the line starts
    with (`none` is Java's `null`), `table` is `none` where no `-t` is given. -/
structure Command where
  tool : Option Text
  family : Family
  table : Option Table
  action : Action
  chain : Chain
  rule : Rule
  deriving Repr, DecidableEq

/-! ## The text of a command -/

def number (n : Int) : Text := (toString n).toList

theorem number_natCast (n : Nat) : number n = Nat.toDigits 10 n := Nat.toList_repr

theorem number_ne_nil (n : Nat) : number n ≠ [] := by
  rw [number_natCast]
  exact Nat.toDigits_ne_nil

theorem number_isDigit (n : Nat) : ∀ c ∈ number n, c.isDigit = true := by
  intro c member
  rw [number_natCast] at member
  exact Nat.isDigit_of_mem_toDigits (by decide) (by decide) member

theorem decimalValue_number (n : Nat) : Java.decimalValue (number n) = n := by
  rw [number_natCast]
  exact Nat.ofDigitChars_ten_toDigits

def Proto.text : Proto → Text
  | .tcp => "tcp".toList
  | .udp => "udp".toList

def Table.text : Table → Text
  | .nat => "nat".toList
  | .filter => "filter".toList

def Chain.text : Chain → Text
  | .output => "OUTPUT".toList
  | .prerouting => "PREROUTING".toList

def Action.text : Action → Text
  | .append => " -A ".toList
  | .delete => " -D ".toList

def Match.text : Match → Text
  | .proto protocol => " -p ".toList ++ protocol.text
  | .notLocalhost => " ! -d 127.0.0.1".toList
  | .inInterface name => " -i ".toList ++ name
  | .outLoopback => " -o lo".toList
  | .owner uid => " -m owner --uid-owner ".toList ++ number uid
  | .notOwner uid => " -m owner ! --uid-owner ".toList ++ number uid
  | .tcpSyn => " -m tcp --syn".toList
  | .module protocol => " -m ".toList ++ protocol.text
  | .dport port => " --dport ".toList ++ number port

def Target.text : Target → Text
  | .accept => " -j ACCEPT".toList
  | .drop => " -j DROP".toList
  | .reject => " -j REJECT".toList
  | .redirect port => " -j REDIRECT --to-ports ".toList ++ number port

/-- The argument of `executeCommand`. -/
def Command.text (c : Command) : Text :=
  c.tool.getD "null".toList ++
    (c.table.elim [] fun table => " -t ".toList ++ table.text) ++
    c.action.text ++ c.chain.text ++
    c.rule.conditions.flatMap Match.text ++ c.rule.target.text

end Orbot.TransProxy
