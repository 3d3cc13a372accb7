import SrtlaOutput.Engine.Sender

/-! Dotted-quad addresses, the instance at which the concrete runs of this development
are evaluated. -/

namespace Srtla

structure Ipv4 where
  octets : List (Fin 256)
  four : octets.length = 4
  deriving DecidableEq, Repr

namespace Ipv4

/-- One to three decimal digits without a leading zero, at most 255. -/
def parseOctet (digits : List Char) : Option (Fin 256) :=
  let value := digits.foldl (fun n c => 10 * n + (c.toNat - '0'.toNat)) 0
  if h : value < 256 then
    if digits.all Char.isDigit && digits != [] && (digits.head? != some '0' || digits.length == 1)
    then some ⟨value, h⟩ else none
  else none

def parse (text : String) : Option Ipv4 :=
  ((text.toList.splitOn '.').mapM parseOctet).bind fun octets =>
    if h : octets.length = 4 then some ⟨octets, h⟩ else none

def toString (a : Ipv4) : String :=
  String.intercalate "." (a.octets.map fun n => ToString.toString n.val)

instance : IpAddr Ipv4 where
  parse := parse
  toString := toString

theorem parseOctet_toString (n : Fin 256) :
    parseOctet (ToString.toString n.val).toList = some n := by
  revert n
  decide +kernel

theorem dot_notMem_octet (n : Fin 256) : '.' ∉ (ToString.toString n.val).toList := by
  revert n
  decide +kernel

theorem parse_toString (a : Ipv4) : parse (toString a) = some a := by
  obtain ⟨octets, hfour⟩ := a
  have htext : (toString ⟨octets, hfour⟩).toList =
      ['.'].intercalate (octets.map fun n => (ToString.toString n.val).toList) := by
    rw [toString, String.toList_intercalate, List.map_map]
    rfl
  have hsplit : (toString ⟨octets, hfour⟩).toList.splitOn '.' =
      octets.map fun n => (ToString.toString n.val).toList := by
    rw [htext]
    apply List.splitOn_intercalate
    · intro digits hdigits
      obtain ⟨n, -, rfl⟩ := List.mem_map.mp hdigits
      exact dot_notMem_octet n
    · rw [Ne, List.map_eq_nil_iff]
      rintro rfl
      cases hfour
  have hoctets : (octets.map fun n => (ToString.toString n.val).toList).mapM parseOctet =
      some octets := by
    clear hfour htext hsplit
    induction octets with
    | nil => rfl
    | cons n octets ih =>
      rw [List.map_cons, List.mapM_cons, parseOctet_toString, ih]
      rfl
  rw [parse, hsplit, hoctets, Option.bind_some, dif_pos hfour]

theorem toString_injective : Function.Injective toString := by
  intro a b hab
  have hparse := congrArg parse hab
  rwa [parse_toString, parse_toString, Option.some.injEq] at hparse

example : (parse "10.0.0.1").map toString = some "10.0.0.1" := by decide

example : parse "10.0.0.01" = none := by decide

end Ipv4
end Srtla
