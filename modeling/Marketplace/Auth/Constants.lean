/-!
# `auth.constants.ts`
-/

namespace Marketplace

def signingAlg : List Char := ['E', 'S', '2', '5', '6']

def jwtIssuer : List Char :=
  ['m', 'a', 'r', 'k', 'e', 't', 'p', 'l', 'a', 'c', 'e', '-', 'a', 'p', 'i']

def jwtAudience : List Char :=
  ['m', 'a', 'r', 'k', 'e', 't', 'p', 'l', 'a', 'c', 'e', '-', 'c', 'l', 'i', 'e', 'n', 't', 's']

def accessTtlSec : Nat := 600

def refreshTtlSec : Nat := 7 * 24 * 60 * 60

def refreshAbsoluteTtlSec : Nat := 30 * 24 * 60 * 60

def loginAttemptLimit : Int := 10

def loginAttemptWindowMs : Int := 15 * 60 * 1000

end Marketplace
