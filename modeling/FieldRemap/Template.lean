/-
  FieldRemap.Template — what a template says about itself.

  A template carries its name and author and one slot for each field that has to be
  supplied. A slot's key is the token the field has in the template's text.
-/

import FieldRemap.Dataset

namespace FieldRemap

structure Slot where
  key : String
  name : String
  namePlaceholder : String := ""
  description : String := ""
  dataType : DataType
  role : FieldRole
  suppliedKey : Option String := none
  suppliedName : Option String := none
  deriving DecidableEq, Repr

namespace Slot

/-- A slot nothing is supplied for; its name is also its name placeholder. -/
def new (key name : String) (dataType : DataType) (role : FieldRole) : Slot :=
  { key, name, namePlaceholder := name, dataType, role }

def assign (slot : Slot) (objectKey objectName : String) : Slot :=
  { slot with suppliedKey := some objectKey, suppliedName := some objectName }

def clear (slot : Slot) : Slot :=
  { slot with suppliedKey := none, suppliedName := none }

def isAssigned (slot : Slot) : Bool :=
  slot.suppliedName.isSome

end Slot

structure TemplateInformation where
  name : String := ""
  description : String := ""
  author : String := ""
  uuid : Option String := none
  deriving DecidableEq, Repr

structure TemplateUsermeta where
  information : TemplateInformation := {}
  dataset : List Slot := []
  deriving DecidableEq, Repr

namespace TemplateUsermeta

def slot? (usermeta : TemplateUsermeta) (key : String) : Option Slot :=
  usermeta.dataset.find? (·.key == key)

/-- Changes the first slot that passes the test, and gives it as changed. -/
def updateFirst (test : Slot → Bool) (change : Slot → Slot) : List Slot → Option (Slot × List Slot)
  | [] => none
  | slot :: rest =>
    if test slot then some (change slot, change slot :: rest)
    else (updateFirst test change rest).map (fun (changed, rest) => (changed, slot :: rest))

end TemplateUsermeta

def unassignedKeys (slots : List Slot) : List String :=
  (slots.filter (!·.isAssigned)).map (·.key)

end FieldRemap
