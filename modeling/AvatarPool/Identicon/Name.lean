import AvatarPool.Sha256
import AvatarPool.Text.Utf8

/-! # Names for seeds

A name is an adjective, a noun and a number of three digits, all picked by the digest of the
seed. -/

namespace AvatarPool.Identicon

open Sha256 (Digest digest)

def adjectives : Vector String 32 := #v[
  "Agile", "Brave", "Calm", "Daring", "Eager", "Fancy", "Gentle", "Happy", "Icy", "Jolly",
  "Keen", "Lucky", "Mellow", "Nimble", "Odd", "Proud", "Quiet", "Rusty", "Shiny", "Tidy",
  "Upbeat", "Vivid", "Witty", "Young", "Zesty", "Bold", "Clever", "Dusty", "Frosty", "Grumpy",
  "Humble", "Lively"]

def nouns : Vector String 32 := #v[
  "Anvil", "Bolt", "Cog", "Dynamo", "Engine", "Flux", "Gear", "Hinge", "Ingot", "Jack",
  "Kettle", "Lever", "Magnet", "Nut", "Oscillator", "Piston", "Quartz", "Rivet", "Sprocket",
  "Turbine", "Unit", "Valve", "Widget", "Xenon", "Yoke", "Zinc", "Circuit", "Diode", "Gasket",
  "Pulley", "Relay", "Spindle"]

/-- A number below a thousand with three digits. -/
def threeDigits (n : Nat) : String :=
  toString (n / 100 % 10) ++ toString (n / 10 % 10) ++ toString (n % 10)

/-- The name picked by a digest: the first byte chooses the adjective, the second the noun, and the
next two are the number. -/
def nameOf (d : Digest) : String :=
  let (a, b, c, e) := Sha256.firstBytes d
  adjectives.get ⟨a.toNat % 32, Nat.mod_lt _ (by decide)⟩
    ++ nouns.get ⟨b.toNat % 32, Nat.mod_lt _ (by decide)⟩
    ++ threeDigits ((c.toNat * 256 + e.toNat) % 1000)

/-- **The name** of a seed. -/
def name (seed : String) : String := nameOf (digest (Text.utf8 seed))

end AvatarPool.Identicon
