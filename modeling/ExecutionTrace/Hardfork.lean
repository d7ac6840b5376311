import ExecutionTrace.Word

/-!
The hardforks in order, and the addresses that each of them reserves for precompiled contracts.
-/
namespace ExecutionTrace

/-- The rule sets of the chain, oldest first. -/
inductive Hardfork where
  | frontier | frontierThawing | homestead | daoFork | tangerine | spuriousDragon | byzantium
  | constantinople | petersburg | istanbul | muirGlacier | berlin | london | arrowGlacier
  | grayGlacier | merge | shanghai | cancun | prague | osaka
deriving DecidableEq, Repr

namespace Hardfork

def all : List Hardfork :=
  [frontier, frontierThawing, homestead, daoFork, tangerine, spuriousDragon, byzantium,
   constantinople, petersburg, istanbul, muirGlacier, berlin, london, arrowGlacier, grayGlacier,
   merge, shanghai, cancun, prague, osaka]

def order : Hardfork → Nat
  | frontier => 0 | frontierThawing => 1 | homestead => 2 | daoFork => 3 | tangerine => 4
  | spuriousDragon => 5 | byzantium => 6 | constantinople => 7 | petersburg => 8 | istanbul => 9
  | muirGlacier => 10 | berlin => 11 | london => 12 | arrowGlacier => 13 | grayGlacier => 14
  | merge => 15 | shanghai => 16 | cancun => 17 | prague => 18 | osaka => 19

def since (fork first : Hardfork) : Bool := first.order ≤ fork.order

def name : Hardfork → String
  | frontier => "FRONTIER" | frontierThawing => "FRONTIER_THAWING" | homestead => "HOMESTEAD"
  | daoFork => "DAO_FORK" | tangerine => "TANGERINE" | spuriousDragon => "SPURIOUS_DRAGON"
  | byzantium => "BYZANTIUM" | constantinople => "CONSTANTINOPLE" | petersburg => "PETERSBURG"
  | istanbul => "ISTANBUL" | muirGlacier => "MUIR_GLACIER" | berlin => "BERLIN"
  | london => "LONDON" | arrowGlacier => "ARROW_GLACIER" | grayGlacier => "GRAY_GLACIER"
  | merge => "MERGE" | shanghai => "SHANGHAI" | cancun => "CANCUN" | prague => "PRAGUE"
  | osaka => "OSAKA"

def ofName? (text : String) : Option Hardfork := all.find? (·.name = text)

/-- The number of precompiled contracts, which have the addresses from one on. -/
def precompiles (fork : Hardfork) : Nat :=
  if fork.since prague then 17
  else if fork.since cancun then 10
  else if fork.since istanbul then 9
  else if fork.since byzantium then 8
  else 4

def isPrecompile (fork : Hardfork) (a : Address) : Bool :=
  0 < a.toNat && a.toNat ≤ fork.precompiles

end Hardfork
end ExecutionTrace
