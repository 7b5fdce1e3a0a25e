import ImageCatalog.Json.Shape

set_option autoImplicit false

namespace ImageCatalog

structure Info where
  year : Option Int64 := none
  version : Option String := none
  description : Option String := none
  contributor : Option String := none
  url : Option String := none
  dateCreated : Option String := none
deriving DecidableEq, Inhabited

namespace Info

open JsonText (Slot Shape Reader)

def stringSlot (name : String) (set : Info → Option String → Info) : Slot Info :=
  { name, required := false
    read := fun info cs =>
      (JsonText.nullable (JsonText.stringValue "a string") cs).map fun (s, rest) =>
        (set info s, rest) }

def shape : Shape Info :=
  { name := "struct Info"
    slots := [
      { name := "year", required := false
        read := fun info cs =>
          (JsonText.nullable JsonText.signed64 cs).map fun (year, rest) =>
            ({ info with year }, rest) },
      stringSlot "version" fun info s => { info with version := s },
      stringSlot "description" fun info s => { info with description := s },
      stringSlot "contributor" fun info s => { info with contributor := s },
      stringSlot "url" fun info s => { info with url := s },
      stringSlot "date_created" fun info s => { info with dateCreated := s }] }

def reader : Reader Info := shape.read {}

def parse (text : String) : Except JsonText.Refusal Info := JsonText.readText reader text

def stringJson : Option String → Json
  | some s => .string s
  | none => .null

def intJson : Option Int64 → Json
  | some n => .number (.integer n.toInt)
  | none => .null

def toJson (info : Info) : Json :=
  .object [("year", intJson info.year), ("version", stringJson info.version),
    ("description", stringJson info.description), ("contributor", stringJson info.contributor),
    ("url", stringJson info.url), ("date_created", stringJson info.dateCreated)]

end Info

end ImageCatalog
