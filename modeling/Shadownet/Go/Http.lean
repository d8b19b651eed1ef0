import Shadownet.Go.Basic

/-!
# HTTP responses of the Go servers

A handler's response as its status, the headers it set and the body it wrote.
-/

namespace Shadownet.Go

open Foundation

structure Response where
  status : Nat
  headers : List (Bytes × Bytes)
  body : Bytes
  deriving DecidableEq

/-- `http.Error`. -/
def httpError (message : String) (code : Nat) : Response :=
  { status := code
    headers := [(bytes "Content-Type", bytes "text/plain; charset=utf-8"),
      (bytes "X-Content-Type-Options", bytes "nosniff")]
    body := bytes message ++ bytes "\n" }

/-- `strconv.Itoa`. -/
def itoa (n : Int) : Bytes := bytes (toString n)

end Shadownet.Go
