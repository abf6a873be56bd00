import AiterCommerce.Core.Serde

namespace AiterCommerce.Server

open AiterCommerce.Core Encoding.Json

def fixtureProduct (id title : String) (units : Int) (description : String) (tags : List String)
    (availableQty : Int) : Value :=
  .object [("id", .string id), ("title", .string title),
    ("price", .object [("units", .int units), ("currency", .string "INR")]),
    ("description", .string description), ("tags", .array (tags.map .string)),
    ("available_qty", .int availableQty)]

/-- The fixture that is embedded in the binary, as it is parsed. -/
def fixture : Value :=
  .object [("products", .array [
    fixtureProduct "espresso" "Espresso" 25000 "Double shot of our house espresso blend."
      ["coffee", "hot"] 100,
    fixtureProduct "americano" "Americano" 28000 "Espresso pulled over hot water."
      ["coffee", "hot"] 80,
    fixtureProduct "cappuccino" "Cappuccino" 32000 "Espresso with steamed milk and a thick foam cap."
      ["coffee", "hot", "milk"] 90,
    fixtureProduct "latte" "Caffe Latte" 35000 "Espresso with a generous amount of steamed milk."
      ["coffee", "hot", "milk"] 90,
    fixtureProduct "flat-white" "Flat White" 36000 "Double espresso with velvety microfoam."
      ["coffee", "hot", "milk"] 60,
    fixtureProduct "caffe-mocha" "Caffe Mocha" 42000 "Espresso with chocolate and steamed milk."
      ["coffee", "hot", "chocolate"] 50,
    fixtureProduct "cold-brew" "Cold Brew" 38000 "Slow-steeped overnight, served over ice."
      ["coffee", "cold"] 70,
    fixtureProduct "filter-coffee" "South Indian Filter Coffee" 20000
      "Traditional frothed filter kaapi." ["coffee", "hot", "milk"] 120,
    fixtureProduct "croissant" "Butter Croissant" 18000 "Flaky, golden, baked fresh each morning."
      ["bakery", "pastry"] 40,
    fixtureProduct "blueberry-muffin" "Blueberry Muffin" 22000
      "Soft muffin loaded with blueberries." ["bakery", "sweet"] 35])]

def demoCatalog : Option (List Product) := Catalog.format.read fixture

end AiterCommerce.Server
