import Mathlib.Data.String.Defs

/-!
# The networks

The network configurations of `config.ts`, with the fields that the modelled functions read: the
name and the indexer of a network, and its faucet, which the local devnet does not have. The other
fields are endpoints that are only handed on.
-/

set_option autoImplicit false
set_option relaxedAutoImplicit false

namespace SealedBid

inductive NetworkName
  | local
  | preview
  | preprod
  deriving DecidableEq

/-- The name as it is written in messages and file names. -/
def NetworkName.toString : NetworkName → String
  | .local => "local"
  | .preview => "preview"
  | .preprod => "preprod"

structure NetworkConfig where
  name : NetworkName
  indexer : String
  /-- Programmatic faucet drip endpoint, when the network exposes one. -/
  faucetApi : Option String
  /-- Human-facing faucet page, for manual top-ups. -/
  faucetPage : Option String
  deriving DecidableEq

def localConfig : NetworkConfig where
  name := .local
  indexer := "http://127.0.0.1:8088/api/v4/graphql"
  faucetApi := none
  faucetPage := none

def previewConfig : NetworkConfig where
  name := .preview
  indexer := "https://indexer.preview.midnight.network/api/v4/graphql"
  faucetApi := some "https://faucet.preview.midnight.network/api/drips"
  faucetPage := some "https://midnight-tmnight-preview.nethermind.dev/"

def preprodConfig : NetworkConfig where
  name := .preprod
  indexer := "https://indexer.preprod.midnight.network/api/v4/graphql"
  faucetApi := some "https://faucet.preprod.midnight.network/api/drips"
  faucetPage := some "https://midnight-tmnight-preprod.nethermind.dev/"

end SealedBid
