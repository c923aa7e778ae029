import CarplayRelay.E2E.UsbRelay

/-!
# The exchange of the session nonce

The server's text is read by `gateway_parse_crypto_init`, which both gateways have.

* `crypto_init_exchange`: the gateway ends up with the server's nonce, and no text from the peer,
  whatever it says, leaves it with half of one.
-/

namespace E2E

open Bytes Crypto

/-- **The exchange of the nonce.** The gateway reads the server's nonce from the server's text. Of
any payload it either installs a whole nonce or changes nothing, and it reports an error only if an
allocation fails or the payload is a `crypto_init` with a bad nonce. -/
theorem crypto_init_exchange {cJSONParse : Bytes → Option Json}
    (hparse : ParsesCryptoInit cJSONParse) :
    (∀ (n : Nonce) (s : NonceState),
      gatewayParseCryptoInit cJSONParse true true (cryptoInitText n) s = (0, ⟨n, true⟩)) ∧
    ∀ (textOk decodedOk : Bool) (payload : Bytes) (s : NonceState),
      let r := gatewayParseCryptoInit cJSONParse textOk decodedOk payload s
      ((∃ n, r = (0, ⟨n, true⟩)) ∨ r = (0, s) ∨ r = (-1, s)) ∧
      (r.1 = -1 → textOk = false ∨ decodedOk = false ∨
        ∃ members, cJSONParse (cString payload) = some (.object members) ∧
          ((Json.object members).getObjectItem "type").bind Json.valuestring =
            some (ascii "crypto_init") ∧
          BadNonce (.object members)) := by
  refine ⟨fun n s => gatewayParseCryptoInit_text hparse n s, ?_⟩
  intro textOk decodedOk payload s
  exact ⟨gatewayParseCryptoInit_result cJSONParse textOk decodedOk payload s,
    gatewayParseCryptoInit_error⟩

/-- A gateway without a nonce reads one. -/
theorem crypto_init_exchange_first :
    gatewayParseCryptoInit parseServerText true true
      (cryptoInitText ⟨[1, 2, 3, 4, 5, 6, 7, 8, 9, 10, 11, 12], rfl⟩)
      ⟨⟨List.replicate 12 0, rfl⟩, false⟩ =
        (0, ⟨⟨[1, 2, 3, 4, 5, 6, 7, 8, 9, 10, 11, 12], rfl⟩, true⟩) :=
  (crypto_init_exchange parsesCryptoInit_parseServerText).1 _ _

end E2E
